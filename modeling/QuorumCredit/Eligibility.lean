import QuorumCredit.Backed
/-!
# The cache behind `is_eligible`

`is_eligible` reads the weighted stake behind a borrower from a cache that it
fills on a miss. Most calls that change the records drop what was cached from
them; a withdrawal without a loan, a partial one during a loan and the calls that
settle the vouches do not, and the latter change the statistics of vouchers that
other borrowers' entries were computed from. The cache is right as long as none
of them touches what an entry was computed from.
-/

open Host Function

namespace QuorumCredit

/-! ## The weighted stake as it is computed -/

/-- What `vouch_reputation_weight` returns, if it does. -/
def Vouching.weightOf (x : Vouching) (voucher : Address) : Option Int :=
  if effectiveYield (x.statsOf voucher).totalYieldEarned = 0 ∨ stakeTimeUnits (x.statsOf voucher) ≠ u64Max then
    some (reputationWeight (x.statsOf voucher))
  else none

/-- What a function answers, without the state it leaves. -/
def answer {σ α : Type} (x : Contract σ α) (ctx : Context) (s : σ) : Except Failure α := (x ctx s).map Prod.fst

section

variable {x y : Vouching} {ctx ctx' : Context}

theorem weightedStake_run (v : VouchRecord) (ctx : Context) (x : Vouching) :
    weightedStake v ctx x =
      match x.weightOf v.voucher with
      | some weight =>
        if FitsI128 (v.stake * weight) then .ok ((v.stake * weight).tdiv bpsDenominator, x) else .error .arithmetic
      | none => .error .arithmetic := by
  unfold weightedStake vouchReputationWeight Vouching.weightOf
  simp only [run_bind, run_look, run_require, run_pure, run_i128]
  by_cases hfits : effectiveYield (x.statsOf v.voucher).totalYieldEarned = 0 ∨
    stakeTimeUnits (x.statsOf v.voucher) ≠ u64Max
  · rw [if_pos hfits, if_pos hfits]
    by_cases hproduct : FitsI128 (v.stake * reputationWeight (x.statsOf v.voucher))
    · simp only [if_pos hproduct]
    · simp only [if_neg hproduct]
  · rw [if_neg hfits, if_neg hfits]

/-- The sum depends on the records in the token and the weights of their vouchers. -/
theorem totalWeightedStake_congr (token : Address) (acc : Int) {vouches : List VouchRecord}
    (hweights : ∀ v ∈ vouches, v.token = token → y.weightOf v.voucher = x.weightOf v.voucher) (ctx ctx' : Context) :
    answer (totalWeightedStake token acc vouches) ctx' y = answer (totalWeightedStake token acc vouches) ctx x := by
  unfold answer
  induction vouches generalizing acc with
  | nil => rfl
  | cons v vouches ih =>
    rw [List.forall_mem_cons] at hweights
    by_cases hv : v.token = token
    · simp only [totalWeightedStake, if_pos hv, run_bind, weightedStake_run, hweights.1 hv]
      cases x.weightOf v.voucher with
      | none => rfl
      | some weight =>
        by_cases hproduct : FitsI128 (v.stake * weight)
        · simp only [if_pos hproduct, run_i128]
          by_cases hsum : FitsI128 (acc + (v.stake * weight).tdiv bpsDenominator)
          · simp only [if_pos hsum]
            exact ih _ hweights.2
          · simp only [if_neg hsum]
        · simp only [if_neg hproduct]
    · simp only [totalWeightedStake, if_neg hv]
      exact ih acc hweights.2

theorem totalWeightedStake_inToken (token : Address) (acc : Int) (vouches : List VouchRecord) :
    totalWeightedStake token acc (inToken token vouches) = totalWeightedStake token acc vouches := by
  induction vouches generalizing acc with
  | nil => rfl
  | cons v vouches ih =>
    by_cases hv : v.token = token
    · simp only [inToken, List.filter_cons, hv, decide_true, if_true, totalWeightedStake]
      congr 1
      funext stake
      congr 1
      funext acc
      exact ih acc
    · simp only [inToken, List.filter_cons, hv, decide_false, Bool.false_eq_true, if_false, totalWeightedStake]
      exact ih acc

/-- The sum over what is stored behind a borrower. -/
theorem totalVouchedWeighted_congr {b token : Address}
    (hrecords : inToken token (y.vouchesOf b) = inToken token (x.vouchesOf b))
    (hweights : ∀ v ∈ x.vouchesOf b, v.token = token → y.weightOf v.voucher = x.weightOf v.voucher)
      (ctx ctx' : Context) :
    answer (totalVouchedWeighted b token) ctx' y = answer (totalVouchedWeighted b token) ctx x := by
  change answer (totalWeightedStake token 0 (y.vouchesOf b)) ctx' y =
    answer (totalWeightedStake token 0 (x.vouchesOf b)) ctx x
  rw [← totalWeightedStake_inToken, hrecords, totalWeightedStake_inToken]
  exact totalWeightedStake_congr token 0 hweights ctx ctx'

end

/-! ## Coherence -/

namespace Vouching

/-- What the cache holds is what the weighted stake is computed to be. -/
def Coherent (x : Vouching) : Prop :=
  ∀ b token total, x.weightedStakeCache b token = some total →
    ∀ ctx, answer (totalVouchedWeighted b token) ctx x = .ok total

/-- The entries of `y` are entries of `x`, and what they were computed from is as it was. -/
def CarriesOver (x y : Vouching) : Prop :=
  ∀ b token total, y.weightedStakeCache b token = some total → x.weightedStakeCache b token = some total ∧
    inToken token (y.vouchesOf b) = inToken token (x.vouchesOf b) ∧
      ∀ v ∈ x.vouchesOf b, v.token = token → y.weightOf v.voucher = x.weightOf v.voucher

variable {x y z : Vouching} {b token : Address} {vouches : List VouchRecord}

theorem Coherent.carry (hx : x.Coherent) (h : CarriesOver x y) : y.Coherent := by
  intro b token total hcached ctx
  obtain ⟨hbefore, hrecords, hweights⟩ := h b token total hcached
  rw [totalVouchedWeighted_congr hrecords hweights ctx ctx]
  exact hx b token total hbefore ctx

theorem weightOf_congr (h : y.voucherStats = x.voucherStats) : y.weightOf = x.weightOf := by
  funext u
  unfold weightOf statsOf
  rw [h]

theorem CarriesOver.of_eq (hcache : y.weightedStakeCache = x.weightedStakeCache) (hrecords : y.vouchesOf = x.vouchesOf)
    (hstats : y.voucherStats = x.voucherStats) : CarriesOver x y := by
  intro b token total hcached
  rw [hcache] at hcached
  exact ⟨hcached, by rw [hrecords], fun v _ _ => by rw [weightOf_congr hstats]⟩

theorem CarriesOver.trans (h : CarriesOver x y) (h' : CarriesOver y z) : CarriesOver x z := by
  intro b token total hcached
  obtain ⟨hmid, hrecords', hweights'⟩ := h' b token total hcached
  obtain ⟨hbefore, hrecords, hweights⟩ := h b token total hmid
  refine ⟨hbefore, hrecords'.trans hrecords, fun v hv ht => ?_⟩
  have hmem : v ∈ inToken token (y.vouchesOf b) := by
    rw [hrecords]
    exact List.mem_filter.2 ⟨hv, decide_eq_true ht⟩
  exact (hweights' v (List.mem_filter.1 hmem).1 ht).trans (hweights v hv ht)

theorem invalidateWeightedStakeCache_entry (x : Vouching) (b token a t : Address) :
    (x.invalidateWeightedStakeCache b token).weightedStakeCache a t =
      if b = a ∧ token = t then none else x.weightedStakeCache a t := by
  unfold invalidateWeightedStakeCache
  by_cases ha : a = b
  · by_cases ht : t = token
    · simp [ha, ht]
    · simp [ha, ht, Ne.symm ht]
  · simp [ha, Ne.symm ha]

/-- The records of `b` in one token change, and its entry in that token is dropped. -/
theorem CarriesOver.rewrite (token : Address)
    (hcache : y.weightedStakeCache = (x.invalidateWeightedStakeCache b token).weightedStakeCache)
    (hrecords : y.vouchesOf = update x.vouchesOf b vouches) (hstats : y.voucherStats = x.voucherStats)
    (hoff : ∀ t, t ≠ token → inToken t vouches = inToken t (x.vouchesOf b)) : CarriesOver x y := by
  intro a t total hcached
  rw [hcache, invalidateWeightedStakeCache_entry] at hcached
  have hkey : ¬ (b = a ∧ token = t) := by
    intro hkey
    rw [if_pos hkey] at hcached
    cases hcached
  rw [if_neg hkey] at hcached
  refine ⟨hcached, ?_, fun v _ _ => by rw [weightOf_congr hstats]⟩
  rw [hrecords]
  by_cases ha : a = b
  · subst ha
    rw [update_self]
    exact hoff t fun ht => hkey ⟨rfl, ht.symm⟩
  · rw [update_of_ne ha]

/-- The same where there was no such entry. -/
theorem CarriesOver.uncached (hnone : x.weightedStakeCache b token = none)
    (hcache : y.weightedStakeCache = x.weightedStakeCache) (hrecords : y.vouchesOf = update x.vouchesOf b vouches)
    (hstats : y.voucherStats = x.voucherStats)
    (hoff : ∀ t, t ≠ token → inToken t vouches = inToken t (x.vouchesOf b)) : CarriesOver x y := by
  refine CarriesOver.rewrite token (hcache.trans ?_) hrecords hstats hoff
  funext a t
  rw [invalidateWeightedStakeCache_entry]
  split
  case isTrue hkey =>
    obtain ⟨rfl, rfl⟩ := hkey
    exact hnone
  case isFalse => rfl

/-- The vouches for `b` are settled, and the cache is left as it is. -/
theorem CarriesOver.settle (hcache : y.weightedStakeCache = x.weightedStakeCache)
    (hrecords : y.vouchesOf = update x.vouchesOf b vouches)
    (hkept : ∀ t total, x.weightedStakeCache b t = some total → inToken t vouches = inToken t (x.vouchesOf b))
    (hweights : ∀ a t total, x.weightedStakeCache a t = some total →
      ∀ v ∈ x.vouchesOf a, v.token = t → y.weightOf v.voucher = x.weightOf v.voucher) : CarriesOver x y := by
  intro a t total hcached
  rw [hcache] at hcached
  refine ⟨hcached, ?_, hweights a t total hcached⟩
  rw [hrecords]
  by_cases ha : a = b
  · subst ha
    rw [update_self]
    exact hkept t total hcached
  · rw [update_of_ne ha]

end Vouching

variable {vouches : List VouchRecord} {v : VouchRecord} {t : Address}

/-- A function that changes the first record of a voucher, within its token. -/
theorem inToken_first {f : List VouchRecord → List VouchRecord} {g : VouchRecord → List VouchRecord} {u : Address}
    (hcons : ∀ v vouches, f (v :: vouches) = if v.voucher = u then g v ++ vouches else v :: f vouches)
    (hg : ∀ v, ∀ r ∈ g v, r.token = v.token) (hfind : findVouch u vouches = some v) (ht : t ≠ v.token) :
      inToken t (f vouches) = inToken t vouches := by
  induction vouches with
  | nil => cases hfind
  | cons w vouches ih =>
    rw [hcons]
    by_cases hw : w.voucher = u
    · have hfound : w = v := by simpa [findVouch, hw] using hfind
      subst hfound
      have hnone : inToken t (g w) = [] := by
        refine List.filter_eq_nil_iff.2 fun r hr => ?_
        simpa [hg w r hr] using Ne.symm ht
      have hself : ¬ w.token = t := Ne.symm ht
      rw [if_pos hw]
      simp only [inToken] at hnone ⊢
      rw [List.filter_append, hnone]
      simp [hself]
    · have hrest : findVouch u vouches = some v := by simpa [findVouch, hw] using hfind
      rw [if_neg hw]
      have ih := ih hrest
      simp only [inToken, List.filter_cons] at ih ⊢
      rw [ih]

theorem inToken_removeVouch {u : Address} (hfind : findVouch u vouches = some v) (ht : t ≠ v.token) :
    inToken t (removeVouch u vouches) = inToken t vouches :=
  inToken_first (g := fun _ => []) (fun _ _ => rfl) (fun _ _ hr => absurd hr List.not_mem_nil) hfind ht

theorem inToken_setStake {u : Address} (hfind : findVouch u vouches = some v) (stake : Int) (ht : t ≠ v.token) :
    inToken t (setStake u stake vouches) = inToken t vouches := by
  refine inToken_first (g := fun v => [{ v with stake }]) (fun _ _ => rfl) (fun w r hr => ?_) hfind ht
  rw [List.mem_singleton.1 hr]

theorem inToken_setVoucher {u : Address} (hfind : findVouch u vouches = some v) (dst : Address) (ht : t ≠ v.token) :
    inToken t (setVoucher u dst vouches) = inToken t vouches := by
  refine inToken_first (g := fun v => [{ v with voucher := dst }]) (fun _ _ => rfl) (fun w r hr => ?_) hfind ht
  rw [List.mem_singleton.1 hr]

theorem inToken_reduceStake {u : Address} (hfind : findVouch u vouches = some v) (amount : Int) (ht : t ≠ v.token) :
    inToken t (reduceStake v amount vouches) = inToken t vouches := by
  have hu := (findVouch_some hfind).2
  unfold reduceStake
  rw [hu]
  split
  · exact inToken_removeVouch hfind ht
  · exact inToken_setStake hfind _ ht

theorem inToken_added {record : VouchRecord} (ht : record.token ≠ t) :
    inToken t (vouches ++ [record]) = inToken t vouches := by
  have hnone : inToken t [record] = [] := by
    apply List.filter_cons_of_neg
    simpa using ht
  rw [inToken, List.filter_append, ← inToken, ← inToken, hnone, List.append_nil]

/-! ## What a call must find -/

/-- The payment is all that is open on a loan of `b` that has not defaulted. -/
def Store.Closes (s : Store) (now : Nat) (b : Address) (payment : Int) (loan : LoanRecord) : Prop :=
  s.book.loanToRepay b = some loan ∧ loan.status ≠ .defaulted ∧ payment = loan.outstandingAt now

/-- The call takes a record of `b` in `token` out or takes from it, and drops nothing that was cached. -/
def Op.takesOut (s : State) (b token : Address) : Op → Prop
  | .requestWithdrawal u b' _ => b' = b ∧ s.store.book.hasActiveLoan b = false ∧
      ∃ v, findVouch u (s.store.records b) = some v ∧ v.token = token
  | .partialWithdraw u b' => b' = b ∧ s.store.book.hasActiveLoan b = true ∧
      ∃ v, findVouch u (s.store.records b) = some v ∧ v.token = token
  | .slash _ b' | .autoSlash b' | .claimExpiredLoan b' => b' = b ∧ inToken token (s.store.records b) ≠ []
  | .repay b' payment => b' = b ∧ (∃ loan, s.store.Closes s.world.now b payment loan) ∧
      inToken token (s.store.records b) ≠ []
  | .executeSlashVote b' | .executePendingSlash b' => b' = b ∧ ∃ loan, s.store.book.getActiveLoanRecord b = some loan ∧
      inToken token (unqueued (foreign loan.tokenAddress (s.store.records b)) (s.store.vault.queue b)) ≠
        inToken token (s.store.records b)
  | _ => False

/-- The call changes the reputation weight of `u`: by what the repaid loan earns, or by the slash. -/
def Op.reweighs (s : State) (u : Address) : Op → Prop
  | .repay b payment => ∃ loan, s.store.Closes s.world.now b payment loan ∧
      (s.store.vault.vouching.earnAll (earnedOn s.world loan.tokenAddress (s.store.locked loan.id))
        (s.store.vault.settledRecords loan.tokenAddress b)).weightOf u ≠ s.store.vault.vouching.weightOf u
  | .executeSlashVote b | .executePendingSlash b => ∃ loan, s.store.book.getActiveLoanRecord b = some loan ∧
      (s.store.vault.vouching.strikeAll (slashRate s.world s.store.book b)
        (inToken loan.tokenAddress (s.store.records b))).weightOf u ≠ s.store.vault.vouching.weightOf u
  | _ => False

/-- The call leaves alone what the entries it does not drop were computed from. -/
def Op.sparesEntries (s : State) (op : Op) : Prop :=
  ∀ b token total, s.store.vault.vouching.weightedStakeCache b token = some total →
    ¬ op.takesOut s b token ∧ ∀ v ∈ s.store.records b, v.token = token → ¬ op.reweighs s v.voucher

/-! ## The vouching calls -/

theorem Committed.carriesOver {w : World} {k : LoanBook} {x y : Vault} (h : Committed w k x y) :
    x.vouching.CarriesOver y.vouching := by
  induction h with
  | nil => exact .of_eq rfl rfl rfl
  | @cons x b record y _ _ _ ih =>
    refine Vouching.CarriesOver.trans ?_ ih
    exact .rewrite record.token rfl (Vouching.committed_vouchesOf ..) rfl fun t ht => inToken_added (Ne.symm ht)

namespace Vouching

variable {x : Vouching} {u b : Address} {v : VouchRecord}

theorem CarriesOver.saved {vouches : List VouchRecord}
    (hoff : ∀ t, t ≠ v.token → inToken t vouches = inToken t (x.vouchesOf b)) :
    x.CarriesOver (x.saved u b v.token vouches) :=
  .rewrite v.token rfl (saved_vouchesOf ..) rfl hoff

theorem CarriesOver.transferred (hfind : findVouch u (x.vouchesOf b) = some v) (dst : Address) :
    x.CarriesOver (x.transferred u dst b v.token) := by
  refine .rewrite v.token ?_ (transferred_vouchesOf ..) ?_ fun t ht => inToken_setVoucher hfind dst ht
  · exact releaseHistory_frame (·.weightedStakeCache) (fun _ _ => rfl) ..
  · exact releaseHistory_frame (·.voucherStats) (fun _ _ => rfl) ..

theorem CarriesOver.split (hfind : findVouch u (x.vouchesOf b) = some v) (now : Nat) (new : Address) (amount : Int) :
    x.CarriesOver (x.split now b new amount v) := by
  have hu := (findVouch_some hfind).2
  refine CarriesOver.rewrite v.token ?_ (split_vouchesOf ..) ?_ ?_
  · exact noteHistory_frame (·.weightedStakeCache) (fun _ _ => rfl) ..
  · exact noteHistory_frame (·.voucherStats) (fun _ _ => rfl) ..
  · intro t ht
    refine (inToken_added ?_).trans ?_
    · exact Ne.symm ht
    · rw [hu]
      exact inToken_setStake hfind _ ht

theorem CarriesOver.moved (hfind : findVouch u (x.vouchesOf b) = some v) (now : Nat) {new : Address} (hnew : b ≠ new) :
    x.CarriesOver (x.moved now b new v) := by
  have hu := (findVouch_some hfind).2
  let out := (x.setVouches b (removeVouch v.voucher (x.vouchesOf b))).invalidateWeightedStakeCache b v.token
  have hout : x.CarriesOver out := by
    refine CarriesOver.rewrite v.token rfl (setVouches_records ..) rfl ?_
    intro t ht
    rw [hu]
    exact inToken_removeVouch hfind ht
  have hafter : (x.moved now b new v).vouchesOf =
      update out.vouchesOf new (x.vouchesOf new ++ [{ v with vouchTimestamp := now }]) := by
    rw [moved_vouchesOf, ← setVouches_records x b]
    rfl
  refine hout.trans (CarriesOver.rewrite v.token ?_ hafter ?_ ?_)
  · refine (noteHistory_frame (·.weightedStakeCache) (fun _ _ => rfl) ..).trans ?_
    exact releaseHistory_frame (·.weightedStakeCache) (fun _ _ => rfl) ..
  · refine (noteHistory_frame (·.voucherStats) (fun _ _ => rfl) ..).trans ?_
    exact releaseHistory_frame (·.voucherStats) (fun _ _ => rfl) ..
  · intro t ht
    have hkept : out.vouchesOf new = x.vouchesOf new := by
      refine (congrFun (setVouches_records x b _) new).trans ?_
      exact update_of_ne (Ne.symm hnew) ..
    rw [hkept]
    exact inToken_added (Ne.symm ht)

theorem CarriesOver.queued {y : Vouching} (h : x.CarriesOver y) (b : Address) (entry : QueuedWithdrawal) :
    x.CarriesOver (y.queued b entry) :=
  h.trans (.of_eq rfl rfl rfl)

end Vouching

/-- A vouching call carries over what is cached unless it takes out of what an entry was computed from. -/
theorem Staked.carriesOver {w : World} {s t : Store} {op : Op} (h : Staked w t.book s.vault t.vault op)
    (he : Effect w s.book op t.book) (hspares : op.sparesEntries ⟨w, s⟩) :
    s.vault.vouching.CarriesOver t.vault.vouching := by
  have huncached : ∀ b token, op.takesOut ⟨w, s⟩ b token →
      s.vault.vouching.weightedStakeCache b token = none := by
    intro b token htakes
    by_contra hcached
    obtain ⟨total, hcached⟩ := Option.ne_none_iff_exists'.1 hcached
    exact (hspares b token total hcached).1 htakes
  cases h with
  | vouched hc | batched hc => exact hc.carriesOver
  | increased hfind _ _ _ hy =>
    rw [hy]
    exact .saved fun t ht => inToken_setStake hfind _ ht
  | decreased hfind _ _ _ _ hy =>
    rw [hy]
    exact .saved fun t ht => inToken_reduceStake hfind _ ht
  | decreasedLater hfind _ _ _ hy =>
    rw [hy]
    exact .queued (.saved fun t ht => inToken_reduceStake hfind _ ht) _ _
  | withdrawn hfind _ _ hy =>
    rw [hy]
    exact .saved fun t ht => inToken_removeVouch hfind ht
  | withdrawnLater hfind _ hy =>
    rw [hy]
    exact .queued (.saved fun t ht => inToken_removeVouch hfind ht) _ _
  | @requested u b fee v hfind _ hidle hy =>
    rw [he.book_kept rfl rfl] at hidle
    have hnone := huncached b v.token ⟨rfl, hidle, v, hfind, rfl⟩
    rw [hy]
    exact .uncached hnone rfl (Vouching.setVouches_records ..) rfl fun t ht => inToken_removeVouch hfind ht
  | @halved u b v hfind _ hactive _ hy =>
    rw [he.book_kept rfl rfl] at hactive
    have hnone := huncached b v.token ⟨rfl, hactive, v, hfind, rfl⟩
    rw [hy]
    exact .uncached hnone rfl (Vouching.setVouches_records ..) rfl fun t ht => inToken_setStake hfind _ ht
  | requestedLater _ _ _ _ hy | halvedLater _ _ hy =>
    rw [hy]
    exact .queued (.of_eq rfl rfl rfl) _ _
  | transferred _ hfind _ _ hy =>
    rw [hy]
    exact .transferred hfind _
  | split hfind _ _ _ _ _ hy =>
    rw [hy]
    exact .split hfind _ _ _
  | rotated hne hfind _ _ hy =>
    rw [hy]
    exact .moved hfind _ hne

/-! ## The calls that settle -/

instance : OffStats Vouching.vouchesOf where
instance : OffStats Vouching.withdrawalQueue where

namespace Vouching

variable {x y : Vouching}

section

variable {γ : Type} {f : Vouching → γ} [OffStats f]

theorem view_earnAll (x : Vouching) (earned : VouchRecord → Int) (vouches : List VouchRecord) :
    f (x.earnAll earned vouches) = f x := by
  induction vouches generalizing x with
  | nil => rfl
  | cons v vouches ih => exact (ih _).trans (OffStats.out _ _)

theorem view_strikeAll (x : Vouching) (bps : Int) (vouches : List VouchRecord) : f (x.strikeAll bps vouches) = f x := by
  induction vouches generalizing x with
  | nil => rfl
  | cons v vouches ih => exact (ih _).trans (OffStats.out _ _)

end

/-- What is earned goes to the statistics as they are. -/
theorem earnAll_stats (h : y.voucherStats = x.voucherStats) (earned : VouchRecord → Int) (vouches : List VouchRecord) :
    (y.earnAll earned vouches).voucherStats = (x.earnAll earned vouches).voucherStats := by
  induction vouches generalizing x y with
  | nil => exact h
  | cons v vouches ih =>
    apply ih
    simp only [earn, setStats, statsOf, h]

end Vouching

namespace Vault

variable {γ : Type} {f : Vouching → γ} [OffRecords f]

theorem view_drained (x : Vault) (w : World) (b : Address) : f (x.drained w b).vouching = f x.vouching := by
  unfold drained
  split
  · rfl
  · exact (view_setQueue _ b []).trans (view_setVouches _ b _)

theorem view_seized [OffStats f] (x : Vault) (w : World) (token : Address) (bps : Int) (b : Address) :
    f (x.seized w token bps b).vouching = f x.vouching := by
  have hstruck : f (x.vouching.strikeAll bps (inToken token (x.records b))) = f x.vouching :=
    Vouching.view_strikeAll x.vouching bps _
  unfold seized
  dsimp only
  split
  · exact (view_removeVouches _ b).trans hstruck
  · exact (view_setVouches _ b _).trans hstruck

theorem seized_stats (x : Vault) (w : World) (token : Address) (bps : Int) (b : Address) :
    (x.seized w token bps b).vouching.voucherStats =
      (x.vouching.strikeAll bps (inToken token (x.records b))).voucherStats := by
  unfold seized
  dsimp only
  split
  · rfl
  · rfl

theorem seized_records (x : Vault) (w : World) (token : Address) (bps : Int) (b : Address) :
    (x.seized w token bps b).records = update x.records b (foreign token (x.records b)) := by
  have hstruck : (x.vouching.strikeAll bps (inToken token (x.records b))).vouchesOf = x.records :=
    Vouching.view_strikeAll x.vouching bps _
  unfold seized records
  dsimp only
  split
  case isTrue hnone =>
    rw [Vouching.removeVouches_records]
    change update (x.vouching.strikeAll bps (inToken token (x.records b))).vouchesOf b [] = _
    rw [hstruck]
    exact congrArg (update x.records b) hnone.symm
  case isFalse =>
    rw [Vouching.setVouches_records]
    change update (x.vouching.strikeAll bps (inToken token (x.records b))).vouchesOf b _ = _
    rw [hstruck]
    rfl

end Vault

/-- The vouches for a repaid loan, settled: they are gone, and their vouchers have earned. -/
theorem Vault.settled_vouching (x : Vault) (w : World) (loan : LoanRecord) (b : Address) (n : Int)
    (dist : List YieldDistributionEntry) {y : Vouching}
    (hy : y = ((x.takes w loan b n).settled w (loan.paidAt w.now n) b dist 0).vouching) :
    y.weightedStakeCache = x.vouching.weightedStakeCache ∧ y.vouchesOf = update x.records b [] ∧
      y.voucherStats = (x.vouching.earnAll (earnedOn w loan.tokenAddress dist)
        (x.settledRecords loan.tokenAddress b)).voucherStats := by
  have htoken : (loan.paidAt w.now n).tokenAddress = loan.tokenAddress := accrueInterest_token w.now loan
  have hsettled : y = ((((x.takes w loan b n).drained w b).vouching.earnAll (earnedOn w loan.tokenAddress dist)
      (x.settledRecords loan.tokenAddress b))).removeVouches b := by
    rw [hy, ← htoken]
    rfl
  subst hsettled
  refine ⟨?_, ?_, ?_⟩
  · apply Eq.trans (Vouching.view_earnAll (f := Vouching.weightedStakeCache) _ _ _)
    exact Vault.view_drained (f := Vouching.weightedStakeCache) (x.takes w loan b n) w b
  · have hdrained : ((x.takes w loan b n).drained w b).vouching.vouchesOf = update x.records b (x.unqueued b) :=
      Vault.drained_records (x.takes w loan b n) w b
    rw [Vouching.removeVouches_records, Vouching.view_earnAll (f := Vouching.vouchesOf), hdrained, update_idem]
  · apply Vouching.earnAll_stats
    exact Vault.view_drained (f := Vouching.voucherStats) (x.takes w loan b n) w b

/-- The vouches behind a slashed loan, with the queue processed: what is left of
them in other tokens, and their vouchers have been slashed. -/
theorem Vault.executed_vouching (x : Vault) (w : World) (token : Address) (bps : Int) (b : Address) {y : Vouching}
    (hy : y = ((x.seized w token bps b).drained w b).vouching) :
    y.weightedStakeCache = x.vouching.weightedStakeCache ∧
      y.vouchesOf = update x.records b (QuorumCredit.unqueued (foreign token (x.records b)) (x.queue b)) ∧
      y.voucherStats = (x.vouching.strikeAll bps (inToken token (x.records b))).voucherStats := by
  subst hy
  refine ⟨?_, ?_, ?_⟩
  · apply Eq.trans (Vault.view_drained (f := Vouching.weightedStakeCache) _ w b)
    exact Vault.view_seized (f := Vouching.weightedStakeCache) x w token bps b
  · have hseized := Vault.seized_records x w token bps b
    have hrecords : (x.seized w token bps b).vouching.vouchesOf b = foreign token (x.records b) := by
      refine (congrFun hseized b).trans ?_
      exact update_self ..
    have hqueue : (x.seized w token bps b).queue b = x.queue b := by
      refine congrFun (f := Vouching.withdrawalQueue _) (g := x.vouching.withdrawalQueue) ?_ b
      unfold Vault.seized
      dsimp only
      split
      · exact Vouching.view_strikeAll (f := Vouching.withdrawalQueue) ..
      · exact Vouching.view_strikeAll (f := Vouching.withdrawalQueue) ..
    refine (Vault.drained_records _ w b).trans ?_
    rw [hseized, Vault.unqueued, hrecords, hqueue, update_idem]
  · apply Eq.trans (Vault.view_drained (f := Vouching.voucherStats) _ w b)
    exact Vault.seized_stats x w token bps b

/-- So does a call that takes a payment or settles a loan. -/
theorem Resolved.carriesOver {w : World} {s t : Store} {op : Op} (h : Resolved w s t op)
    (hspares : op.sparesEntries ⟨w, s⟩) : s.vault.vouching.CarriesOver t.vault.vouching := by
  cases h with
  | paid _ _ _ ht =>
    rw [ht]
    exact .of_eq rfl rfl rfl
  | recovered _ _ ht =>
    rw [ht]
    exact .of_eq rfl rfl rfl
  | @closed b n loan ho hstatus hall ht =>
    have hcloses : s.Closes w.now b n loan := ⟨ho, hstatus, hall⟩
    obtain ⟨hcache, hrecords, hstats⟩ := Vault.settled_vouching s.vault w loan b n _ (congrArg Vault.vouching ht)
    refine .settle hcache hrecords ?_ ?_
    · intro token total hcached
      by_contra hrest
      exact (hspares b token total hcached).1 ⟨rfl, ⟨loan, hcloses⟩, fun hnone => hrest hnone.symm⟩
    · intro a token total hcached v hv htoken
      rw [Vouching.weightOf_congr hstats]
      by_contra hchanged
      exact (hspares a token total hcached).2 v hv htoken ⟨loan, hcloses, hchanged⟩
  | @slashed op b loan hslash _ _ _ ht =>
    rw [ht]
    refine .settle (b := b) rfl (Vouching.removeVouches_records ..) ?_ ?_
    · intro token total hcached
      by_contra hrest
      have htakes : op.takesOut ⟨w, s⟩ b token := by
        rcases hslash with ⟨_, rfl⟩ | rfl
        · exact ⟨rfl, fun hnone => hrest hnone.symm⟩
        · exact ⟨rfl, fun hnone => hrest hnone.symm⟩
      exact (hspares b token total hcached).1 htakes
    · intros
      rfl
  | @returned b loan _ _ _ ht =>
    rw [ht]
    refine .settle (b := b) rfl (Vouching.removeVouches_records ..) ?_ ?_
    · intro token total hcached
      by_contra hrest
      exact (hspares b token total hcached).1 ⟨rfl, fun hnone => hrest hnone.symm⟩
    · intros
      rfl
  | @executed op b loan hexecutes hloan _ ht =>
    obtain ⟨hcache, hrecords, hstats⟩ := Vault.executed_vouching s.vault w _ _ b (congrArg Vault.vouching ht)
    have hcalls : op = .executeSlashVote b ∨ op = .executePendingSlash b := by
      cases op <;> first | (cases hexecutes; simp) | cases hexecutes
    refine .settle hcache hrecords ?_ ?_
    · intro token total hcached
      by_contra hrest
      have htakes : op.takesOut ⟨w, s⟩ b token := by
        rcases hcalls with rfl | rfl
        · exact ⟨rfl, loan, hloan, hrest⟩
        · exact ⟨rfl, loan, hloan, hrest⟩
      exact (hspares b token total hcached).1 htakes
    · intro a token total hcached v hv htoken
      rw [Vouching.weightOf_congr hstats]
      by_contra hchanged
      have hreweighs : op.reweighs ⟨w, s⟩ v.voucher := by
        rcases hcalls with rfl | rfl
        · exact ⟨loan, hloan, hchanged⟩
        · exact ⟨loan, hloan, hchanged⟩
      exact (hspares a token total hcached).2 v hv htoken hreweighs

/-- A call that goes through carries over what is cached if it finds what it must. -/
theorem carriesOver_of {s : State} (hs : s.store.book.Solid) (hk : s.store.book.Keyed) {c : Call} {t : Store}
    (h : exec c s = .ok t) (hspares : c.op.sparesEntries s) : s.store.vault.vouching.CarriesOver t.vault.vouching := by
  by_cases hop : c.op.stakes = true
  · exact (staked_of h hop).carriesOver (effect_of h) hspares
  · have hop := Bool.eq_false_of_not_eq_true hop
    cases hresolves : c.op.resolves with
    | some b => exact (resolved_of hs hk h hresolves).carriesOver hspares
    | none =>
      have hcache := yields_exec ((dispatch_keeps_unsettled (f := Vouching.weightedStakeCache) hop hresolves).out _ _) h
      have hstats := yields_exec ((dispatch_keeps_unsettled (f := Vouching.voucherStats) hop hresolves).out _ _) h
      exact .of_eq hcache (records_kept h hop hresolves) hstats

/-! ## `is_eligible` -/

/-- The storage with nothing cached. -/
def Store.uncached (s : Store) : Store :=
  { s with vault := { s.vault with vouching := { s.vault.vouching with weightedStakeCache := fun _ _ => none } } }

section

variable {s : Store} {ctx : Context}

theorem totalVouchedWeighted_run {b token : Address} {x y : Vouching} {total : Int}
    (h : totalVouchedWeighted b token ctx x = .ok (total, y)) : y = x := by
  have hkeeps : Keeps (id : Vouching → Vouching) (totalVouchedWeighted b token) := by
    unfold totalVouchedWeighted
    infer_instance
  exact hkeeps.out ctx x total y h

/-- `y` is `x` with the entry of `b` in `token` written. -/
def Vouching.cacheWeightedStake (x : Vouching) (b token : Address) (total : Int) : Vouching :=
  { x with weightedStakeCache := update x.weightedStakeCache b (update (x.weightedStakeCache b) token (some total)) }

theorem getCachedWeightedStake_run (b token : Address) (ctx : Context) (x : Vouching) :
    getCachedWeightedStake b token ctx x =
      match x.weightedStakeCache b token with
      | some cached => .ok (cached, x)
      | none =>
        (answer (totalVouchedWeighted b token) ctx x).map fun total => (total, x.cacheWeightedStake b token total) := by
  simp only [getCachedWeightedStake, run_bind, run_look]
  cases x.weightedStakeCache b token with
  | some cached => rfl
  | none =>
    simp only [computeAndCacheWeightedStake, run_bind, answer]
    cases hrun : totalVouchedWeighted b token ctx x with
    | error e => rfl
    | ok r =>
      obtain ⟨total, y⟩ := r
      obtain rfl := totalVouchedWeighted_run hrun
      rfl

/-- The storage with other vouching entries. -/
def Store.withVouching (s : Store) (x : Vouching) : Store := { s with vault := { s.vault with vouching := x } }

theorem isEligible_run (b : Address) (threshold : Int) (token : Address) (ctx : Context) (s : Store) :
    isEligible b threshold token ctx s =
      if threshold ≤ 0 ∨ s.book.hasActiveLoan b = true then .ok (false, s)
      else (getCachedWeightedStake b token ctx s.vault.vouching).map fun r =>
        (decide (threshold ≤ r.1), s.withVouching r.2) := by
  unfold isEligible
  by_cases hthreshold : threshold ≤ 0
  · rw [if_pos hthreshold, if_pos (.inl hthreshold), run_pure]
  · rw [if_neg hthreshold]
    by_cases hactive : s.book.hasActiveLoan b = true
    · rw [if_pos (.inr hactive), run_bind, run_look]
      dsimp only
      rw [if_pos hactive, run_pure]
    · rw [if_neg (not_or.2 ⟨hthreshold, hactive⟩), run_bind, run_look]
      dsimp only
      rw [if_neg hactive]
      simp only [run_bind, yields_parts, run_zoom]
      have hvouching : (Host.Part.get (Host.Part.get s : Vault) : Vouching) = s.vault.vouching := rfl
      rw [hvouching]
      cases getCachedWeightedStake b token ctx s.vault.vouching with
      | error e => rfl
      | ok r => rfl

theorem Vouching.Coherent.cacheWeightedStake {x : Vouching} (hx : x.Coherent) {b token : Address} {total : Int}
    (h : answer (totalVouchedWeighted b token) ctx x = .ok total) : (x.cacheWeightedStake b token total).Coherent := by
  intro a t total' hcached ctx'
  have hsame : answer (totalVouchedWeighted a t) ctx' (x.cacheWeightedStake b token total) =
      answer (totalVouchedWeighted a t) ctx' x :=
    totalVouchedWeighted_congr (x := x) (y := x.cacheWeightedStake b token total) rfl (fun _ _ _ => rfl) ctx' ctx'
  rw [hsame]
  by_cases hkey : a = b ∧ t = token
  · obtain ⟨rfl, rfl⟩ := hkey
    have hentry : (x.cacheWeightedStake a t total).weightedStakeCache a t = some total := by
      simp [Vouching.cacheWeightedStake]
    rw [hentry] at hcached
    cases hcached
    rw [← h]
    exact totalVouchedWeighted_congr rfl (fun _ _ _ => rfl) ctx ctx'
  · have hentry : (x.cacheWeightedStake b token total).weightedStakeCache a t = x.weightedStakeCache a t := by
      unfold Vouching.cacheWeightedStake
      dsimp only
      by_cases ha : a = b
      · have ht : t ≠ token := fun ht => hkey ⟨ha, ht⟩
        rw [ha, update_self, update_of_ne ht]
      · rw [update_of_ne ha]
    rw [hentry] at hcached
    exact hx a t total' hcached ctx'

/-- `is_eligible` keeps the cache right, and leaves the book alone. -/
theorem isEligible_coherent {b token : Address} {threshold : Int} {eligible : Bool} {t : Store}
    (hx : s.vault.vouching.Coherent) (h : isEligible b threshold token ctx s = .ok (eligible, t)) :
    t.vault.vouching.Coherent ∧ t.book = s.book := by
  rw [isEligible_run] at h
  split at h
  · cases h
    exact ⟨hx, rfl⟩
  · rw [getCachedWeightedStake_run] at h
    cases hentry : s.vault.vouching.weightedStakeCache b token with
    | some cached =>
      rw [hentry] at h
      cases h
      exact ⟨hx, rfl⟩
    | none =>
      rw [hentry] at h
      cases hanswer : answer (totalVouchedWeighted b token) ctx s.vault.vouching with
      | error e =>
        rw [hanswer] at h
        cases h
      | ok total =>
        rw [hanswer] at h
        cases h
        exact ⟨hx.cacheWeightedStake hanswer, rfl⟩

/-- With a right cache, it answers as it does without one. -/
theorem isEligible_uncached (hx : s.vault.vouching.Coherent) (b : Address) (threshold : Int) (token : Address)
    (ctx : Context) : answer (isEligible b threshold token) ctx s = answer (isEligible b threshold token)
      ctx s.uncached := by
  have hplain : answer (totalVouchedWeighted b token) ctx s.uncached.vault.vouching =
      answer (totalVouchedWeighted b token) ctx s.vault.vouching :=
    totalVouchedWeighted_congr (x := s.vault.vouching) (y := s.uncached.vault.vouching) rfl (fun _ _ _ => rfl) ctx ctx
  have hnone : s.uncached.vault.vouching.weightedStakeCache b token = none := rfl
  have hbook : s.uncached.book = s.book := rfl
  rw [answer, answer, isEligible_run, isEligible_run, hbook]
  split
  · rfl
  · rw [getCachedWeightedStake_run, getCachedWeightedStake_run, hnone]
    dsimp only
    rw [hplain]
    cases hentry : s.vault.vouching.weightedStakeCache b token with
    | some cached =>
      rw [hx b token cached hentry ctx]
      rfl
    | none =>
      cases answer (totalVouchedWeighted b token) ctx s.vault.vouching with
      | error e => rfl
      | ok total => rfl

end

/-! ## Every run -/

/-- What happens in a run: what may happen to the vouches, or somebody asks. -/
inductive EligibleMove where
  | act (m : BackingMove)
  | isEligible (borrower : Address) (threshold : Int) (token : Address)

inductive EligibleStep : State → EligibleMove → State → Prop
  | act {s m s'} : BackingStep s m s' → EligibleStep s (.act m) s'
  | answered {s signers b threshold token eligible t} :
      isEligible b threshold token ⟨s.world, signers⟩ s.store = .ok (eligible, t) →
      EligibleStep s (.isEligible b threshold token) { s with store := t }
  | trapped {s signers b threshold token e} : isEligible b threshold token ⟨s.world, signers⟩ s.store = .error e →
      EligibleStep s (.isEligible b threshold token) s

/-- What a step must find if it goes through: a call what is said above, and the
processing of a queue no entry that was computed from a queued record. -/
def EligibleMove.sparesEntries (s : State) : EligibleMove → Prop
  | .act (.act m) => WhenDone (fun s op => op.sparesEntries s) s m
  | .act (.processQueue b) => (∃ t, s.processed b = some t) → ∀ token total,
      s.store.vault.vouching.weightedStakeCache b token = some total →
        inToken token (s.store.vault.unqueued b) = inToken token (s.store.records b)
  | .isEligible .. => True

theorem backingStep_carriesOver {s s' : State} {m : BackingMove} (h : BackingStep s m s')
    (hbook : s.store.book.InOrder s.world.now) (hspares : EligibleMove.sparesEntries s (.act m)) :
    s.store.vault.vouching.CarriesOver s'.store.vault.vouching := by
  cases h with
  | act h =>
    cases h with
    | done hd => exact carriesOver_of hbook.solid hbook.keyed hd (hspares ⟨_, hd⟩)
    | refused _ => exact .of_eq rfl rfl rfl
    | elsewhere _ _ => exact .of_eq rfl rfl rfl
  | @processed b t h =>
    have hprocessed : ∃ t, s.processed b = some t := ⟨t, h⟩
    obtain rfl := processed_spec h
    refine .settle (b := b) ?_ (Vault.drained_records s.store.vault s.world b) (hspares hprocessed) ?_
    · exact Vault.view_drained (f := Vouching.weightedStakeCache) s.store.vault s.world b
    · intro a token total _ v _ _
      rw [Vouching.weightOf_congr (Vault.view_drained (f := Vouching.voucherStats) s.store.vault s.world b)]
  | trapped _ => exact .of_eq rfl rfl rfl

theorem eligibleStep_coherent {s s' : State} {m : EligibleMove} (h : EligibleStep s m s') (hspares : m.sparesEntries s)
    (hi : s.store.book.InOrder s.world.now ∧ s.store.vault.vouching.Coherent) :
    s'.store.book.InOrder s'.world.now ∧ s'.store.vault.vouching.Coherent := by
  obtain ⟨hbook, hcoherent⟩ := hi
  cases h with
  | act h => exact ⟨backingStep_book h hbook, hcoherent.carry (backingStep_carriesOver h hbook hspares)⟩
  | answered h =>
    obtain ⟨hafter, hkept⟩ := isEligible_coherent hcoherent h
    refine ⟨?_, hafter⟩
    dsimp only
    rw [hkept]
    exact hbook
  | trapped _ => exact ⟨hbook, hcoherent⟩

/-- The state after `is_eligible` has been asked. -/
def State.asked (s : State) (b : Address) (threshold : Int) (token : Address) : State :=
  match isEligible b threshold token ⟨s.world, []⟩ s.store with
  | .ok (_, t) => { s with store := t }
  | .error _ => s

theorem EligibleStep.asked (s : State) (b : Address) (threshold : Int) (token : Address) :
    EligibleStep s (.isEligible b threshold token) (s.asked b threshold token) := by
  unfold State.asked
  split
  case h_1 eligible t h => exact .answered h
  case h_2 e h => exact .trapped h

/-- Account 2 vouches for account 10, and somebody asks whether that is enough. -/
def eligibleState : State := (start.play [.call [2] (.vouch 2 10 1000000 100 0)]).asked 10 1000000 100

theorem eligible_run : Run EligibleStep start
    [(start.play [.call [2] (.vouch 2 10 1000000 100 0)], .isEligible 10 1000000 100),
      (start, .act (.act (.call ⟨[2], .vouch 2 10 1000000 100 0⟩)))] eligibleState :=
  Run.snoc (.snoc .nil (.act (.act (Step.after start ⟨[2], .vouch 2 10 1000000 100 0⟩)))) (.asked _ _ _ _)

/-- Or all of it by `request_withdrawal`, which does not. -/
def withdrawnState : State := eligibleState.after ⟨[2], .requestWithdrawal 2 10 0⟩

end QuorumCredit
