import QuorumCredit.Indexes
/-!
# The yield-rate cache

`cache.rs` keeps the yield rate computed for a voucher behind a borrower, for an
hour and under the base rate it was computed with. The entry is written when a
loan is requested, and `increase_stake`, `decrease_stake` and `withdraw_vouch`
drop it. The other calls that change the stake do not, so an entry is fresh
exactly as long as none of them meets one that has not expired.
-/

open Host Function

namespace QuorumCredit

/-! ## The plain rate, and the one that is served -/

/-- The rate `vouch_yield_bps_uncached` computes. -/
def plainRate (base : Int) (now : Nat) (x : Vouching) (repayments defaults : Nat) (v : VouchRecord) : Int :=
  max (base + ageBonus now v + reputationBonus repayments defaults + voucherReputationBonus (x.voucherStats v.voucher) +
    reliabilityBonus (x.voucherStats v.voucher) + diversificationBonus (x.voucherHistory v.voucher)) 0

/-- The rate an entry is good for. -/
def servedRate (base : Int) (now : Nat) : Option CachedYield → Option Int
  | some e => if e.baseYieldBps = base ∧ now - e.cachedAt ≤ cacheTtlSecs then some e.yieldBps else none
  | none => none

theorem servedRate_some {base : Int} {now : Nat} {entry : Option CachedYield} {rate : Int} :
    servedRate base now entry = some rate ↔ ∃ e, entry = some e ∧ e.baseYieldBps = base ∧
      now - e.cachedAt ≤ cacheTtlSecs ∧ e.yieldBps = rate := by
  cases entry with
  | none => simp [servedRate]
  | some e =>
    by_cases h : e.baseYieldBps = base ∧ now - e.cachedAt ≤ cacheTtlSecs
    · rw [servedRate, if_pos h]
      constructor
      · intro hr
        exact ⟨e, rfl, h.1, h.2, Option.some.inj hr⟩
      · rintro ⟨_, he, -, -, rfl⟩
        cases he
        rfl
    · rw [servedRate, if_neg h]
      refine iff_of_false (by simp) ?_
      rintro ⟨_, he, hbase, hage, -⟩
      cases he
      exact h ⟨hbase, hage⟩

theorem ageBonus_eq (now : Nat) (v : VouchRecord) : ageBonus now v =
    if 2592000 ≤ now - v.vouchTimestamp then min (((now - v.vouchTimestamp) / 2592000 : Nat) * (25 : Int)) 200 else 0 :=
  rfl

/-- An hour is no more than one step of the age bonus. -/
theorem ageBonus_later (v : VouchRecord) {now later : Nat} (hle : now ≤ later) (hhour : later ≤ now + cacheTtlSecs) :
    ageBonus now v ≤ ageBonus later v ∧ ageBonus later v ≤ ageBonus now v + vouchAgeBonusBpsPerPeriod := by
  rw [ageBonus_eq, ageBonus_eq]
  simp only [cacheTtlSecs] at hhour
  simp only [vouchAgeBonusBpsPerPeriod]
  split <;> split <;> omega

theorem plainRate_later (base : Int) (x : Vouching) (repayments defaults : Nat) (v : VouchRecord) {now later : Nat}
    (hle : now ≤ later) (hhour : later ≤ now + cacheTtlSecs) :
    plainRate base now x repayments defaults v ≤ plainRate base later x repayments defaults v ∧
      plainRate base later x repayments defaults v ≤
        plainRate base now x repayments defaults v + vouchAgeBonusBpsPerPeriod := by
  obtain ⟨hlo, hhi⟩ := ageBonus_later v hle hhour
  have hstep : 0 ≤ vouchAgeBonusBpsPerPeriod := by decide
  unfold plainRate
  omega

/-! ## One call at a time -/

/-- `y` is `x` with rates of records from `vouches`, as of `x`, in the cache. -/
structure Caches (w : World) (b : Address) (repayments defaults : Nat) (vouches : List VouchRecord) (x y : Vouching) :
    Prop where
  rest : y = { x with yieldCache := y.yieldCache }
  entries : ∀ a u, y.yieldCache a u = x.yieldCache a u ∨ a = b ∧ ∃ v ∈ vouches, v.voucher = u ∧ y.yieldCache a u =
    some ⟨plainRate w.config.yieldBps w.now x repayments defaults v, w.config.yieldBps, w.now⟩

namespace Caches

variable {w : World} {b : Address} {repayments defaults : Nat} {vouches : List VouchRecord} {x y z : Vouching}

theorem refl (x : Vouching) : Caches w b repayments defaults vouches x x := ⟨rfl, fun _ _ => .inl rfl⟩

theorem trans (h : Caches w b repayments defaults vouches x y) (h' : Caches w b repayments defaults vouches y z) :
    Caches w b repayments defaults vouches x z := by
  have hrate : ∀ v, plainRate w.config.yieldBps w.now y repayments defaults v =
      plainRate w.config.yieldBps w.now x repayments defaults v := by
    intro v
    rw [h.rest]
    rfl
  refine ⟨?_, fun a u => ?_⟩
  · rw [h'.rest, h.rest]
  · rcases h'.entries a u with hz | ⟨rfl, v, hv, rfl, hz⟩
    · rw [hz]
      exact h.entries a u
    · rw [hrate] at hz
      exact .inr ⟨rfl, v, hv, rfl, hz⟩

end Caches

section Calls

variable {ctx : Context} {x : Vouching} {s : Store}

theorem vouchYieldBpsUncached_spec (v : VouchRecord) (repayments defaults : Nat) :
    Yields (vouchYieldBpsUncached v repayments defaults) ctx x fun rate y =>
      rate = plainRate ctx.config.yieldBps ctx.now x repayments defaults v ∧ y = x := by
  simp only [vouchYieldBpsUncached, yields_steps, yields_i128]
  exact fun _ => ⟨rfl, trivial⟩

theorem getCachedYield_run (b u : Address) (base : Int) (ctx : Context) (x : Vouching) :
    getCachedYield b u base ctx x = .ok (servedRate base ctx.now (x.yieldCache b u), x) := by
  simp only [getCachedYield, run_bind, run_ask, run_look]
  cases x.yieldCache b u with
  | none => rfl
  | some e =>
    by_cases hbase : e.baseYieldBps = base
    · by_cases hage : cacheTtlSecs < ctx.now - e.cachedAt
      · simp [servedRate, hbase, hage, Nat.not_le.2 hage, run_pure]
      · simp [servedRate, hbase, hage, Nat.not_lt.1 hage, run_pure]
    · simp [servedRate, hbase, run_pure]

theorem vouchYieldBps_caches (b : Address) {v : VouchRecord} {vouches : List VouchRecord} (hv : v ∈ vouches)
    (repayments defaults : Nat) : Yields (vouchYieldBps b v repayments defaults) ctx x fun _ y =>
      Caches ctx.toWorld b repayments defaults vouches x y := by
  simp only [vouchYieldBps, yields_steps]
  refine (Yields.of_run' (getCachedYield_run b v.voucher ctx.config.yieldBps ctx x)).mono ?_
  intro cached y hrun
  obtain ⟨hcached, hy⟩ := hrun
  subst hy
  cases cached with
  | some rate => exact (yields_pure _ _ _ _).2 (.refl y)
  | none =>
    simp only [yields_steps]
    refine (vouchYieldBpsUncached_spec v repayments defaults).mono ?_
    rintro rate x ⟨rfl, rfl⟩
    refine ⟨rfl, fun a u => ?_⟩
    by_cases ha : a = b
    · by_cases hu : u = v.voucher
      · subst ha hu
        exact .inr ⟨rfl, v, hv, rfl, by simp⟩
      · subst ha
        exact .inl (by simp [hu])
    · exact .inl (by simp [ha])

theorem vouchYield_caches (b : Address) (amount totalStake bonus : Int) (repayments defaults : Nat) {v : VouchRecord}
    {vouches : List VouchRecord} (hv : v ∈ vouches) :
    Yields (vouchYield b amount totalStake bonus repayments defaults v) ctx x fun _ y =>
      Caches ctx.toWorld b repayments defaults vouches x y := by
  simp only [vouchYield, yields_steps, yields_i128, yields_divI128]
  refine (vouchYieldBps_caches b hv repayments defaults).mono fun rate y h _ => ?_
  refine yields_keeps id fun stake z hz => ?_
  rw [id, id] at hz
  subst hz
  intros
  exact h

theorem yieldDistribution_caches (b token : Address) (amount totalStake bonus : Int) (repayments defaults : Nat)
    (acc : YieldShares) {part vouches : List VouchRecord} (hpart : part ⊆ vouches) :
    Yields (yieldDistribution b token amount totalStake bonus repayments defaults acc part) ctx x fun _ y =>
      Caches ctx.toWorld b repayments defaults vouches x y := by
  induction part generalizing acc x with
  | nil =>
    unfold yieldDistribution
    exact (yields_pure _ _ _ _).2 (.refl x)
  | cons v part ih =>
    have hrest := List.subset_of_cons_subset hpart
    unfold yieldDistribution
    split
    · simp only [yields_bind, yields_i128]
      refine (vouchYield_caches b amount totalStake bonus repayments defaults
        (hpart List.mem_cons_self)).mono fun _ y h _ => ?_
      exact (ih _ hrest).mono fun _ z h' => h.trans h'
    · exact ih acc hrest

theorem lockYield_caches (b token : Address) (amount totalStake : Int) (repayments defaults : Nat) :
    Yields (lockYield b token amount totalStake repayments defaults) ctx x fun _ y =>
      Caches ctx.toWorld b repayments defaults (x.vouchesOf b) x y := by
  simp only [lockYield, yields_steps, yields_i128]
  refine yields_keeps id fun bps y hy _ => ?_
  rw [id, id] at hy
  subst hy
  exact yieldDistribution_caches b token amount totalStake _ repayments defaults _ (List.Subset.refl _)

/-- The book as `request_loan` finds it once it has looked at the borrower's loans. -/
def LoanBook.lookedAt (now : Nat) (b : Address) (k : LoanBook) : LoanBook := k.markAll now (k.borrowerLoanIds b)

set_option synthInstance.maxSize 200000 in
theorem requestLoan_caches (b : Address) (amount threshold : Int) (purpose : String) (token : Address) :
    Yields (requestLoan b amount threshold purpose token) ctx s fun _ t =>
      Caches ctx.toWorld b ((s.book.lookedAt ctx.now b).repaymentCount b) ((s.book.lookedAt ctx.now b).defaultCount b)
        (s.records b) s.vault.vouching t.vault.vouching := by
  have hguards : Keeps (Store.view id) (admitLoan b amount threshold token) := by
    unfold admitLoan
    infer_instance
  have hdisburse : ∀ loan, Keeps (Store.view id) (disburseLoan loan) := by
    intro loan
    unfold disburseLoan
    infer_instance
  unfold requestLoan
  simp only [yields_bind, yields_ask, yields_look, yields_u64]
  refine ((admitLoan_book b amount threshold token).and (hguards.out ctx s)).mono fun totalStake s₁ h₁ => ?_
  obtain ⟨⟨hbook, -⟩, hvouching⟩ := h₁
  simp only [lift_eq_zoom, lift_self]
  refine (yields_zoom _ _ _ _).2 ((yields_nextLoanId _ _).2 fun _ => ?_)
  refine (yields_zoom _ _ _ _).2 ((yields_zoom _ _ _ _).2 ((lockYield_caches b token amount totalStake _ _).mono ?_))
  intro shares y hcaches _
  refine (yields_zoom _ _ _ _).2 ((yields_nextLoanId _ _).2 fun _ => ?_)
  refine yields_keeps (Store.view id) fun _ s₂ h₂ => ?_
  refine ((hdisburse _).out _ _).mono fun _ t ht => ?_
  have hafter : t.vault.vouching = y := ht.trans h₂
  have hbefore : s₁.vault.vouching = s.vault.vouching := hvouching
  have hlooked : s₁.book = s.book.lookedAt ctx.now b := hbook
  have hcaches : Caches ctx.toWorld b (s₁.book.repaymentCount b) (s₁.book.defaultCount b)
      (s₁.vault.vouching.vouchesOf b)
      s₁.vault.vouching y := hcaches
  rw [hlooked, hbefore] at hcaches
  rw [hafter]
  exact hcaches

end Calls

/-! ## Every call -/

/-- The calls that drop the rate of `u` behind `b`. -/
def Op.dropsYield (b u : Address) : Op → Prop
  | .increaseStake u' b' _ | .decreaseStake u' b' _ | .withdrawVouch u' b' => b' = b ∧ u' = u
  | _ => False

/-- The calls that change the stake of `u` behind `b` and leave the rate. -/
def Op.overlooksYield (s : State) (b u : Address) : Op → Prop
  | .partialWithdraw u' b' => b' = b ∧ u' = u ∧ s.store.book.hasActiveLoan b = true
  | .transferVouch src dst b' => b' = b ∧ (src = u ∨ dst = u)
  | .splitVouch u' b' new _ => b' = b ∧ (u' = u ∨ new = u)
  | .rotateToNewBorrower u' old new => u' = u ∧ (old = b ∨ new = b)
  | _ => False

/-- The calls that change the stake of `u` behind `b`: `increase_stake`,
`decrease_stake`, `withdraw_vouch`, a partial withdrawal during a loan, a
transfer, a split or a rotation that `u` or `b` has a part in. -/
def Op.restakes (s : State) (b u : Address) (op : Op) : Prop := op.dropsYield b u ∨ op.overlooksYield s b u

theorem invalidateYieldCache_entry (x : Vouching) (b u a v : Address) :
    (x.invalidateYieldCache b u).yieldCache a v = if b = a ∧ u = v then none else x.yieldCache a v := by
  unfold Vouching.invalidateYieldCache
  by_cases ha : a = b
  · by_cases hv : v = u
    · simp [ha, hv]
    · simp [ha, hv, Ne.symm hv]
  · simp [ha, Ne.symm ha]

theorem Committed.yieldCache {w : World} {k : LoanBook} {x y : Vault} (h : Committed w k x y) :
    y.vouching.yieldCache = x.vouching.yieldCache := by
  induction h with
  | nil => rfl
  | cons _ _ _ ih => exact ih

/-- The call is a request for a loan to `b`. -/
def Op.requests (b : Address) : Op → Prop
  | .requestLoan b' .. => b' = b
  | _ => False

/-- What a vouching call leaves of the rate of `u` behind `b`. -/
theorem Staked.yieldCache {w : World} {k : LoanBook} {x y : Vault} {op : Op} (h : Staked w k x y op) (b u : Address) :
    op.dropsYield b u ∧ y.vouching.yieldCache b u = none ∨
      ¬ op.dropsYield b u ∧ y.vouching.yieldCache b u = x.vouching.yieldCache b u := by
  have hsaved : ∀ {u' b' token : Address} {vouches : List VouchRecord},
      (b' = b ∧ u' = u) ∧ (x.vouching.saved u' b' token vouches).yieldCache b u = none ∨
        ¬ (b' = b ∧ u' = u) ∧ (x.vouching.saved u' b' token vouches).yieldCache b u = x.vouching.yieldCache b u := by
    intro u' b' token vouches
    rw [Vouching.saved, invalidateYieldCache_entry]
    by_cases hkey : b' = b ∧ u' = u
    · exact .inl ⟨hkey, if_pos hkey⟩
    · exact .inr ⟨hkey, if_neg hkey⟩
  cases h with
  | vouched hc | batched hc => exact .inr ⟨id, congrFun (congrFun hc.yieldCache b) u⟩
  | increased _ _ _ _ hy | decreased _ _ _ _ _ hy | decreasedLater _ _ _ _ hy | withdrawn _ _ _ hy
  | withdrawnLater _ _ hy =>
    rw [hy]
    exact hsaved
  | requested _ _ _ hy | requestedLater _ _ _ _ hy | halved _ _ _ _ hy | halvedLater _ _ hy =>
    rw [hy]
    exact .inr ⟨id, rfl⟩
  | transferred _ _ _ _ hy =>
    rw [hy]
    exact .inr ⟨id, Vouching.releaseHistory_frame (·.yieldCache b u) (fun _ _ => rfl) ..⟩
  | split _ _ _ _ _ _ hy =>
    rw [hy]
    exact .inr ⟨id, Vouching.noteHistory_frame (·.yieldCache b u) (fun _ _ => rfl) ..⟩
  | rotated _ _ _ _ hy =>
    rw [hy]
    refine .inr ⟨id, (Vouching.noteHistory_frame (·.yieldCache b u) (fun _ _ => rfl) ..).trans ?_⟩
    exact Vouching.releaseHistory_frame (·.yieldCache b u) (fun _ _ => rfl) ..

/-- The rate `vouch_yield_bps_uncached` gives for a record behind `b` when a loan is requested in `s`. -/
def State.requestRate (s : State) (now : Nat) (b : Address) (v : VouchRecord) : Int :=
  let k := s.store.book.lookedAt s.world.now b
  plainRate s.world.config.yieldBps now s.store.vault.vouching (k.repaymentCount b) (k.defaultCount b) v

/-- The entries a call writes: the rates of records, at a request of a loan. -/
def Op.writesYield (s : State) (b u : Address) (e : CachedYield) (op : Op) : Prop :=
  op.requests b ∧ ∃ v ∈ s.store.records b, v.voucher = u ∧
    e = ⟨s.requestRate s.world.now b v, s.world.config.yieldBps, s.world.now⟩

/-- Where the rate of `u` behind `b` comes from: from before, and nothing has
dropped it, or from a request of a loan. -/
theorem yieldCache_of {s : State} {c : Call} {t : Store} (h : exec c s = .ok t) {b u : Address} {e : CachedYield}
    (he : t.vault.vouching.yieldCache b u = some e) :
    s.store.vault.vouching.yieldCache b u = some e ∧ ¬ c.op.dropsYield b u ∨ c.op.writesYield s b u e := by
  obtain ⟨signers, op⟩ := c
  by_cases hop : op.stakes = true
  · rcases (staked_of h hop).yieldCache b u with ⟨-, hnone⟩ | ⟨hkept, heq⟩
    · rw [hnone] at he
      cases he
    · exact .inl ⟨heq ▸ he, hkept⟩
  · have hkept : ¬ op.dropsYield b u := by
      cases op
      case increaseStake | decreaseStake | withdrawVouch => exact absurd rfl hop
      all_goals exact id
    cases hlocks : op.locksYield with
    | false =>
      have hindexes : op.indexes = false := by
        have hstakes := Bool.eq_false_of_not_eq_true hop
        cases op <;> first | rfl | cases hstakes
      have hview := yields_exec (c := ⟨signers, op⟩)
        ((dispatch_keeps_yields (f := Vouching.yieldCache) hindexes hlocks).out _ _) h
      exact .inl ⟨(congrFun (congrFun hview b) u).symm.trans he, hkept⟩
    | true =>
      cases op with
      | requestLoan borrower amount threshold purpose token =>
        have hcaches := yields_exec (c := ⟨signers, .requestLoan borrower amount threshold purpose token⟩)
          (requestLoan_caches borrower amount threshold purpose token) h
        rcases hcaches.entries b u with heq | ⟨rfl, v, hv, hvoucher, heq⟩
        · exact .inl ⟨heq ▸ he, hkept⟩
        · rw [heq] at he
          cases he
          exact .inr ⟨rfl, v, hv, hvoucher, rfl⟩
      | _ => cases hlocks

/-! ## Every run -/

/-- What a call must find to leave no outdated rate: an entry it changes the
stake of without dropping it has expired. -/
def Op.keepsYields (s : State) (op : Op) : Prop :=
  ∀ b u e, op.overlooksYield s b u → s.store.vault.vouching.yieldCache b u = some e →
    e.cachedAt + cacheTtlSecs < s.world.now

/-- Where the rate served for `u` behind `b` comes from: a request of a loan in
`t`, at most an hour ago, under the same base rate, computed it for the record
`v`; the time that has passed makes a difference of one age step at most; and no
call since has changed the stake. -/
structure ServedYield (h : List (State × Move)) (s : State) (b u : Address) (rate : Int) (t : State) (v : VouchRecord)
    (post : List (State × Move)) : Prop where
  request : ∃ c pre, h = post ++ (t, .call c) :: pre ∧ c.op.requests b ∧ ∃ t', exec c t = .ok t'
  record : v ∈ t.store.records b ∧ v.voucher = u
  plain : rate = t.requestRate t.world.now b v
  base : t.world.config.yieldBps = s.world.config.yieldBps
  hour : t.world.now ≤ s.world.now ∧ s.world.now ≤ t.world.now + cacheTtlSecs
  passed : rate ≤ t.requestRate s.world.now b v ∧ t.requestRate s.world.now b v ≤ rate + vouchAgeBonusBpsPerPeriod
  unchanged : ¬ Happened (fun s op => op.restakes s b u) post

theorem History.earlier {h s} (hr : History h s) {t : State} {m : Move} (hmem : (t, m) ∈ h) :
    t.world.now ≤ s.world.now := by
  obtain ⟨world, bank, hr⟩ := hr
  refine hr.since (I := fun s => t.world.now ≤ s.world.now) (fun s l s' hst hle => ?_) hmem le_rfl
  cases hst with
  | done _ => exact hle
  | refused _ => exact hle
  | elsewhere hnow _ => exact hle.trans hnow

/-- The call goes through and is one of those `p` describes. -/
def Does (p : State → Op → Prop) (s : State) (m : Move) : Prop :=
  ∃ c, m = .call c ∧ (∃ t, exec c s = .ok t) ∧ p s c.op

theorem Step.yield {s s' : State} {m : Move} (hst : Step s m s') {b u : Address} {e : CachedYield}
    (he : s'.store.vault.vouching.yieldCache b u = some e) :
    s.store.vault.vouching.yieldCache b u = some e ∧ ¬ Does (fun _ op => op.dropsYield b u) s m ∨
      Does (fun s op => op.writesYield s b u e) s m := by
  cases hst with
  | @done c t hd =>
    rcases yieldCache_of hd he with ⟨hbefore, hkept⟩ | hwrites
    · refine .inl ⟨hbefore, ?_⟩
      rintro ⟨c', hc, -, hdrops⟩
      cases hc
      exact hkept hdrops
    · exact .inr ⟨c, rfl, ⟨t, hd⟩, hwrites⟩
  | refused hrefused =>
    refine .inl ⟨he, ?_⟩
    rintro ⟨c', hc, ⟨t, hd⟩, -⟩
    cases hc
    rw [hrefused] at hd
    cases hd
  | elsewhere _ _ =>
    refine .inl ⟨he, ?_⟩
    rintro ⟨c', hc, -⟩
    cases hc

/-- The request an entry stems from, and what has passed it by since. -/
theorem History.yield_written {h s} (hr : History h s) {b u : Address} {e : CachedYield}
    (he : s.store.vault.vouching.yieldCache b u = some e) :
    ∃ post t c pre, h = post ++ (t, .call c) :: pre ∧ (∃ t', exec c t = .ok t') ∧ c.op.writesYield t b u e ∧
      ∀ x ∈ post, x.1.store.vault.vouching.yieldCache b u = some e ∧
        ¬ Does (fun _ op => op.dropsYield b u) x.1 x.2 := by
  obtain ⟨world, bank, hrun⟩ := hr
  obtain ⟨post, t, m, pre, rfl, ⟨c, rfl, hgoes, hwrites⟩, hsince⟩ :=
    hrun.written (fun s (k : Address × Address) => s.store.vault.vouching.yieldCache k.1 k.2)
      (fun s m k e => Does (fun s op => op.writesYield s k.1 k.2 e) s m)
      (fun s m k => Does (fun _ op => op.dropsYield k.1 k.2) s m) (fun _ => rfl) (fun hst he => hst.yield he)
      (k := (b, u)) he
  exact ⟨post, t, c, pre, rfl, hgoes, hwrites, hsince⟩

/-- A loan is requested, and the voucher takes half of the stake out. -/
def halvedLoan : List Act := requestedLoan ++ [.call [2] (.partialWithdraw 2 10)]

end QuorumCredit
