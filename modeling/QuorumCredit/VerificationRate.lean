import QuorumCredit.CredentialRateLimit
import QuorumCredit.Host.Metered
/-!
# The verification rate

A token is worth the window and a second earns the limit, so attempts are metered
as long as refilling keeps that worth. It does where whole tokens take whole
seconds. Where they do not, the refill clock is set back a fraction of a second
each time, and attempts at the right moments earn that fraction again and again.
-/

open Host Function

namespace QuorumCredit

/-- The call changes the limit or the window of `v`. -/
def RateLimitOp.Configures (v : Address) : RateLimitOp → Prop
  | .setVerificationRateLimit holder _ => holder = v
  | .setRateLimitWindow holder _ => holder = v
  | .consumeVerificationAttempt _ => False

instance (v : Address) (op : RateLimitOp) : Decidable (op.Configures v) := by
  unfold RateLimitOp.Configures
  split <;> infer_instance

/-- The call writes the limit or the bucket of `v`. -/
def RateLimitOp.Concerns (v : Address) : RateLimitOp → Prop
  | .setVerificationRateLimit holder _ => holder = v
  | .setRateLimitWindow holder _ => holder = v
  | .consumeVerificationAttempt holder => holder = v

/-- When the attempts on `v` were made that went through, newest first. -/
def attempts (v : Address) : RateHistory → List Nat :=
  rateLimits.replay
    (fun s op _ times =>
      match op with
      | .consumeVerificationAttempt holder => if holder = v then s.world.now :: times else times
      | _ => times) []

/-- `v` has this limit and window, and a bucket within the limit. -/
structure Limited (v : Address) (limit window : Nat) (s : Situated World RateLimits) : Prop where
  clock : s.world.now ≤ u64Max
  limit_eq : (s.store.getVerificationRateLimit v).limit = limit
  window_eq : (s.store.getVerificationRateLimit v).windowSecs = window
  bucket : ∀ b, s.store.verificationBucket v = some b → b.tokens ≤ limit ∧ b.lastRefillAt ≤ s.world.now

/-- The rate of the attempts on `v` is limited: in any `secs` seconds; the bucket
holds no more than the limit and was not refilled in the future; and a drained
bucket is full again a window later. -/
structure RateBound (v : Address) (limit window : Nat) (h : RateHistory) (s : Situated World RateLimits) : Prop where
  rate : ∀ since secs,
    (attempts v h).countP (fun t => since ≤ t ∧ t ≤ since + secs) ≤ limit + secs * limit / window + 1
  bucket : ∀ b, s.store.verificationBucket v = some b → b.tokens ≤ limit ∧ b.lastRefillAt ≤ s.world.now
  full : ∀ b, s.store.verificationBucket v = some b → b.tokens = 0 → ∀ h' s', Run rateLimits.Step s h' s' →
    Along (rateLimits.WhenDone fun _ op => ¬ op.Concerns v) h' → s.world.now + window ≤ s'.world.now →
      s'.store.getAvailableAttempts v s'.world.now = limit

/-! ## What a call does -/

/-- The bucket of `v` without one token, if it has one at `now`. -/
def RateLimits.spend (r : RateLimits) (v : Address) (now : Nat) : Option TokenBucket :=
  let config := r.getVerificationRateLimit v
  (r.loadBucket v config.limit now).spend config now

theorem goes_consumeVerificationAttempt (holder : Address) (ctx : Context) (r : RateLimits)
    (Q : Nat → RateLimits → Prop) :
    Goes (consumeVerificationAttempt holder) ctx r Q ↔ ∃ b, r.spend holder ctx.now = some b ∧
      Q b.tokens { r with verificationBucket := update r.verificationBucket holder (some b) } := by
  simp only [consumeVerificationAttempt, RateLimits.spend, TokenBucket.spend, goes_bind, goes_look, goes_ask,
    goes_require, goes_alter, goes_pure]
  split
  case isTrue hsome => simp [hsome]
  case isFalse hnone => simp [hnone]

section

variable {s : Situated World RateLimits} {signers : List Address} {t : RateLimits} {v : Address}

theorem exec_consume {b : TokenBucket} (hspend : s.store.spend v s.world.now = some b) :
    rateLimits.exec s signers (.consumeVerificationAttempt v) =
      some { s.store with verificationBucket := update s.store.verificationBucket v (some b) } := by
  refine Component.exec_eq_some_iff.2 ?_
  simp only [rateLimits, RateLimitOp.run, discard, goes_bind, goes_pure,
    goes_consumeVerificationAttempt]
  exact ⟨b, hspend, rfl⟩

/-- An attempt on `v` spends a token of its bucket. -/
theorem consume_of_exec (he : rateLimits.exec s signers (.consumeVerificationAttempt v) = some t) :
    ∃ b, s.store.spend v s.world.now = some b ∧
      t = { s.store with verificationBucket := update s.store.verificationBucket v (some b) } := by
  have hgoes := Component.exec_eq_some_iff.1 he
  simp only [rateLimits, RateLimitOp.run, discard, goes_bind, goes_pure,
    goes_consumeVerificationAttempt] at hgoes
  obtain ⟨b, hspend, heq⟩ := hgoes
  exact ⟨b, hspend, heq.symm⟩

/-- Every other call leaves the limit and the bucket of `v` alone. -/
theorem other_of_exec {op : RateLimitOp} (he : rateLimits.exec s signers op = some t) (hop : ¬ op.Concerns v) :
    t.verificationRateLimit v = s.store.verificationRateLimit v ∧
      t.verificationBucket v = s.store.verificationBucket v := by
  have hgoes := Component.exec_eq_some_iff.1 he
  cases op with
  | setVerificationRateLimit holder limit =>
    have hne : v ≠ holder := fun h => hop h.symm
    simp only [rateLimits, RateLimitOp.run, setVerificationRateLimit, validateVerificationLimit, discard,
      goes_bind, goes_requireAuth, goes_require, goes_ask, goes_look, goes_alter,
      goes_pure] at hgoes
    obtain ⟨-, -, rfl⟩ := hgoes
    exact ⟨update_of_ne hne _ _, update_of_ne hne _ _⟩
  | setRateLimitWindow holder windowSecs =>
    have hne : v ≠ holder := fun h => hop h.symm
    simp only [rateLimits, RateLimitOp.run, setVerificationWindow, discard, goes_bind,
      goes_requireAuth, goes_require, goes_ask, goes_look, goes_alter, goes_pure] at hgoes
    obtain ⟨-, -, rfl⟩ := hgoes
    exact ⟨update_of_ne hne _ _, rfl⟩
  | consumeVerificationAttempt holder =>
    have hne : v ≠ holder := fun h => hop h.symm
    obtain ⟨b, -, rfl⟩ := consume_of_exec he
    exact ⟨rfl, update_of_ne hne _ _⟩

end

theorem RateLimits.getVerificationRateLimit_congr {r r' : RateLimits} {v : Address}
    (h : r'.verificationRateLimit v = r.verificationRateLimit v) :
    r'.getVerificationRateLimit v = r.getVerificationRateLimit v := by
  unfold getVerificationRateLimit
  rw [h]

theorem RateLimits.loadBucket_congr {r r' : RateLimits} {v : Address}
    (h : r'.verificationBucket v = r.verificationBucket v) (limit now : Nat) :
    r'.loadBucket v limit now = r.loadBucket v limit now := by
  unfold loadBucket
  rw [h]

theorem RateLimits.loadBucket_of_some {r : RateLimits} {v : Address} {b : TokenBucket}
    (h : r.verificationBucket v = some b) (limit now : Nat) : r.loadBucket v limit now = b := by
  unfold loadBucket
  rw [h, Option.getD_some]

/-! ## The bucket -/

section

variable {v : Address} {limit window : Nat} {s : Situated World RateLimits} {signers : List Address} {op : RateLimitOp}
  {t : RateLimits}

theorem Limited.load (h : Limited v limit window s) :
    (s.store.loadBucket v limit s.world.now).lastRefillAt ≤ s.world.now := by
  cases hb : s.store.verificationBucket v with
  | none =>
    unfold RateLimits.loadBucket
    rw [hb]
    exact le_refl _
  | some b =>
    rw [RateLimits.loadBucket_of_some hb]
    exact (h.bucket b hb).2

theorem Limited.call (h : Limited v limit window s) (hop : ¬ op.Configures v)
    (he : rateLimits.exec s signers op = some t) : Limited v limit window ⟨s.world, t⟩ := by
  by_cases hconcerns : op.Concerns v
  · cases op with
    | setVerificationRateLimit => exact absurd hconcerns hop
    | setRateLimitWindow => exact absurd hconcerns hop
    | consumeVerificationAttempt holder =>
      cases (hconcerns : holder = v)
      obtain ⟨b, hspend, rfl⟩ := consume_of_exec he
      rw [RateLimits.spend, h.limit_eq] at hspend
      refine ⟨h.clock, h.limit_eq, h.window_eq, fun b' hb' => ?_⟩
      simp only [update_self] at hb'
      cases hb'
      have hspent := TokenBucket.of_spend hspend
      have htokens := @TokenBucket.refill_tokens_le (s.store.loadBucket v limit s.world.now)
        (s.store.getVerificationRateLimit v) s.world.now
      have hlast := @TokenBucket.refill_last_le _ (s.store.getVerificationRateLimit v) _ h.load
      rw [h.limit_eq] at htokens
      constructor
      · omega
      · rwa [← hspent.2]
  · obtain ⟨hconfig, hbucket⟩ := other_of_exec he hconcerns
    have hsame := RateLimits.getVerificationRateLimit_congr hconfig
    refine ⟨h.clock, by rw [hsame, h.limit_eq], by rw [hsame, h.window_eq], fun b hb => ?_⟩
    rw [hbucket] at hb
    exact h.bucket b hb

theorem Limited.idle (h : Limited v limit window s) {s' : Situated World RateLimits}
    (hs' : s' = s ∨ rateLimits.drift s.world s.store s'.world s'.store) : Limited v limit window s' := by
  rcases hs' with rfl | ⟨hclock, hmax, hsame⟩
  · exact h
  · refine ⟨hmax, ?_, ?_, fun b hb => ?_⟩
    · rw [hsame, h.limit_eq]
    · rw [hsame, h.window_eq]
    · rw [hsame] at hb
      exact ⟨(h.bucket b hb).1, (h.bucket b hb).2.trans hclock⟩

/-- What the bucket of `v` is worth, up to its capacity. -/
def bucketWorth (v : Address) (limit window : Nat) (s : Situated World RateLimits) : Nat :=
  min ((s.store.loadBucket v limit s.world.now).credit (s.store.getVerificationRateLimit v) s.world.now)
    (limit * window)

/-- An attempt takes the worth of a token. -/
theorem metered_attempt (hwindow : 0 < window) (hdvd : limit ∣ window ∨ window ∣ limit)
    {times : List Nat} (hl : Limited v limit window s)
    (hm : Metered window limit (limit * window) times s.world.now (bucketWorth v limit window s))
    (he : rateLimits.exec s signers (.consumeVerificationAttempt v) = some t) :
    Metered window limit (limit * window) (s.world.now :: times) s.world.now
      (bucketWorth v limit window ⟨s.world, t⟩) := by
  obtain ⟨b, hspend, rfl⟩ := consume_of_exec he
  rw [RateLimits.spend, hl.limit_eq] at hspend
  have hspent := TokenBucket.credit_of_spend (hl.window_eq ▸ hwindow)
    (by rw [hl.limit_eq, hl.window_eq]; exact hdvd) hspend
  rw [hl.limit_eq, hl.window_eq] at hspent
  -- refilling is worth nothing, and then a token is taken
  have hrefilled : Metered window limit (limit * window) times s.world.now
      (b.credit (s.store.getVerificationRateLimit v) s.world.now + window) :=
    hm.wait (le_refl _) (by unfold bucketWorth; omega) hspent.2
  have hadmitted := hrefilled.take (Nat.le_add_left _ _)
  rw [Nat.add_sub_cancel] at hadmitted
  refine hadmitted.wait (le_refl _) ?_ (Nat.min_le_right _ _)
  have hload : RateLimits.loadBucket
      { s.store with verificationBucket := update s.store.verificationBucket v (some b) } v limit s.world.now = b :=
    RateLimits.loadBucket_of_some (update_self v _ _) _ _
  unfold bucketWorth
  rw [hload]
  exact (Nat.min_le_left _ _).trans (Nat.le_add_right _ _)

/-- Meanwhile the bucket earns no more than its rate. -/
theorem metered_elsewhere {times : List Nat} (hl : Limited v limit window s)
    (hm : Metered window limit (limit * window) times s.world.now (bucketWorth v limit window s))
    {s' : Situated World RateLimits} (hs' : s' = s ∨ rateLimits.drift s.world s.store s'.world s'.store) :
    Metered window limit (limit * window) times s'.world.now (bucketWorth v limit window s') := by
  rcases hs' with rfl | ⟨hclock, -, hsame⟩
  · exact hm
  · refine hm.wait hclock ?_ (Nat.min_le_right _ _)
    unfold bucketWorth
    rw [hsame]
    cases hb : s.store.verificationBucket v with
    | none =>
      have hload : ∀ now, s.store.loadBucket v limit now = ⟨limit, now⟩ := fun now => by
        unfold RateLimits.loadBucket
        rw [hb, Option.getD_none]
      simp only [hload, TokenBucket.credit, Nat.sub_self, Nat.zero_mul, Nat.add_zero]
      omega
    | some b =>
      have hlast := (hl.bucket b hb).2
      have hsplit : (s'.world.now - b.lastRefillAt) * limit =
          (s.world.now - b.lastRefillAt) * limit + (s'.world.now - s.world.now) * limit := by
        rw [← Nat.add_mul]
        congr 1
        omega
      simp only [RateLimits.loadBucket_of_some hb, TokenBucket.credit, hl.limit_eq, hsplit]
      omega

/-- A call that makes no attempt on `v` leaves its bucket's worth alone. -/
theorem bucketWorth_of_other (he : rateLimits.exec s signers op = some t) (hop : ¬ op.Concerns v) :
    bucketWorth v limit window ⟨s.world, t⟩ = bucketWorth v limit window s := by
  obtain ⟨hconfig, hbucket⟩ := other_of_exec he hop
  unfold bucketWorth
  simp only [RateLimits.loadBucket_congr hbucket, RateLimits.getVerificationRateLimit_congr hconfig]

theorem attempts_of_other {h : RateHistory} (he : rateLimits.exec s signers op = some t) (hop : ¬ op.Concerns v) :
    attempts v ((s, .call signers op) :: h) = attempts v h := by
  unfold attempts
  rw [Component.replay_call he]
  cases op with
  | setVerificationRateLimit => rfl
  | setRateLimitWindow => rfl
  | consumeVerificationAttempt holder => exact if_neg hop

theorem attempts_of_consume {h : RateHistory}
    (he : rateLimits.exec s signers (.consumeVerificationAttempt v) = some t) :
    attempts v ((s, .call signers (.consumeVerificationAttempt v)) :: h) = s.world.now :: attempts v h := by
  unfold attempts
  rw [Component.replay_call he]
  exact if_pos rfl

end

/-! ## Runs -/

section

variable {v : Address} {limit window : Nat} {s₀ s : Situated World RateLimits} {h : RateHistory}

/-- Where whole tokens take whole seconds, the attempts are metered. -/
theorem attempts_metered (hwindow : 0 < window) (hdvd : limit ∣ window ∨ window ∣ limit)
    (h0 : Limited v limit window s₀) (hr : Run rateLimits.Step s₀ h s)
    (hok : Along (rateLimits.WhenDone fun _ op => ¬ op.Configures v) h) :
    Limited v limit window s ∧
      Metered window limit (limit * window) (attempts v h) s.world.now (bucketWorth v limit window s) := by
  refine Component.inv_throughout (C := rateLimits)
    (I := fun h s => Limited v limit window s ∧
      Metered window limit (limit * window) (attempts v h) s.world.now (bucketWorth v limit window s))
    ⟨h0, .start (Nat.min_le_right _ _)⟩ ?_ ?_ hr hok.throughout
  · rintro h s signers op t - ⟨hl, hm⟩ hop he
    refine ⟨hl.call hop he, ?_⟩
    by_cases hconcerns : op.Concerns v
    · cases op with
      | setVerificationRateLimit => exact absurd hconcerns hop
      | setRateLimitWindow => exact absurd hconcerns hop
      | consumeVerificationAttempt holder =>
        cases (hconcerns : holder = v)
        rw [attempts_of_consume he]
        exact metered_attempt hwindow hdvd hl hm he
    · rw [attempts_of_other he hconcerns, bucketWorth_of_other he hconcerns]
      exact hm
  · rintro h s e s' ⟨hl, hm⟩ hnone hs'
    refine ⟨hl.idle hs', ?_⟩
    rw [attempts, Component.replay_idle hnone]
    exact metered_elsewhere hl hm hs'

/-- A bucket nobody spends from is full a window later. -/
theorem refilled_in_a_window (hwindow : 0 < window) (hl : Limited v limit window s) {b : TokenBucket}
    (hb : s.store.verificationBucket v = some b) {h' : RateHistory} {s' : Situated World RateLimits}
    (hr : Run rateLimits.Step s h' s') (hok : Along (rateLimits.WhenDone fun _ op => ¬ op.Concerns v) h')
    (hlater : s.world.now + window ≤ s'.world.now) :
    s'.store.getAvailableAttempts v s'.world.now = limit := by
  have hsame : s'.store.verificationRateLimit v = s.store.verificationRateLimit v ∧
      s'.store.verificationBucket v = s.store.verificationBucket v := by
    refine Component.inv_throughout (C := rateLimits)
      (I := fun _ t => t.store.verificationRateLimit v = s.store.verificationRateLimit v ∧
        t.store.verificationBucket v = s.store.verificationBucket v) ⟨rfl, rfl⟩ ?_ ?_ hr hok.throughout
    · intro _ _ _ _ _ _ hi hop he
      obtain ⟨hconfig, hbucket⟩ := other_of_exec he hop
      exact ⟨hconfig.trans hi.1, hbucket.trans hi.2⟩
    · rintro _ s e s' hi - (rfl | ⟨-, -, hstore⟩)
      · exact hi
      · rw [hstore]
        exact hi
  have hlast := (hl.bucket b hb).2
  simp only [RateLimits.getAvailableAttempts, RateLimits.getVerificationRateLimit_congr hsame.1,
    RateLimits.loadBucket_congr hsame.2, RateLimits.loadBucket_of_some hb]
  rw [TokenBucket.refill_full, hl.limit_eq]
  · rw [hl.window_eq]
    exact hwindow
  · rw [hl.window_eq]
    omega

end

/-! ## Where whole tokens take no whole seconds -/

/-- Attempts at these times, one after another, all find a token. -/
inductive Drains (config : VerificationRateLimit) : TokenBucket → Nat → List Nat → Prop
  | nil {b now} : Drains config b now []
  | cons {b now t b' ts} : now ≤ t → t ≤ u64Max → b.spend config t = some b' → Drains config b' t ts →
      Drains config b now (t :: ts)

/-- They can be made. -/
theorem Drains.run {config : VerificationRateLimit} {v : Address} {b : TokenBucket} {now : Nat} {ts : List Nat}
    (hd : Drains config b now ts) {s₀ s : Situated World RateLimits} {h : RateHistory}
    (hr : Run rateLimits.Step s₀ h s) (hok : Along (rateLimits.WhenDone fun _ op => ¬ op.Configures v) h)
    (hconfig : s.store.getVerificationRateLimit v = config) (hb : s.store.verificationBucket v = some b)
    (hnow : s.world.now = now) :
    ∃ h' s', Run rateLimits.Step s₀ h' s' ∧ Along (rateLimits.WhenDone fun _ op => ¬ op.Configures v) h' ∧
      attempts v h' = ts.reverse ++ attempts v h := by
  induction hd generalizing s h with
  | nil => exact ⟨h, s, hr, hok, rfl⟩
  | @cons b now t b' ts hlater hclock hspend _ ih =>
    have hwait := hr.snoc (.elsewhere (w := { s.world with now := t }) (t := s.store)
      ⟨hnow.le.trans hlater, hclock, rfl⟩)
    have hgoes : RateLimits.spend s.store v t = some b' := by
      simp only [RateLimits.spend, hconfig, RateLimits.loadBucket_of_some hb, hspend]
    have he := @exec_consume ⟨{ s.world with now := t }, s.store⟩ [] v b' hgoes
    have hcall := hwait.snoc (.call _ [] (.consumeVerificationAttempt v))
    rw [Component.after, he] at hcall
    obtain ⟨h', s', hr', hok', htimes⟩ := ih hcall
      (List.forall_mem_cons.2 ⟨Component.whenDone_call (fun hop => hop) _, List.forall_mem_cons.2
        ⟨fun _ hd => (by cases hd), hok⟩⟩) hconfig (update_self v _ _) rfl
    refine ⟨h', s', hr', hok', ?_⟩
    rw [htimes, attempts_of_consume he, attempts, Component.replay_idle rfl, List.reverse_cons, List.append_assoc]
    rfl

/-- A bucket of `v` with this limit and window, at this time. -/
def bucketStart (w : World) (config : VerificationRateLimit) (bucket : TokenBucket) (now : Nat) :
    Situated World RateLimits :=
  ⟨{ w with now }, { verificationRateLimit := update (fun _ => none) config.holder (some config)
                     verificationBucket := update (fun _ => none) config.holder (some bucket) }⟩

section

variable {config : VerificationRateLimit} {bucket : TokenBucket} {now : Nat}

theorem bucketStart_limited (w : World) (hclock : now ≤ u64Max) (htokens : bucket.tokens ≤ config.limit)
    (hlast : bucket.lastRefillAt ≤ now) :
    Limited config.holder config.limit config.windowSecs (bucketStart w config bucket now) := by
  have hconfig : (bucketStart w config bucket now).store.getVerificationRateLimit config.holder = config := by
    simp [bucketStart, RateLimits.getVerificationRateLimit]
  refine ⟨hclock, by rw [hconfig], by rw [hconfig], fun b hb => ?_⟩
  simp only [bucketStart, update_self] at hb
  cases hb
  exact ⟨htokens, hlast⟩

/-- More attempts than the rate allows, all of them in `secs` seconds, break the bound. -/
theorem not_bound_of_drains (w : World) {ts : List Nat} (hd : Drains config bucket now ts)
    (hclock : now ≤ u64Max) (htokens : bucket.tokens ≤ config.limit) (hlast : bucket.lastRefillAt ≤ now)
    (since secs : Nat) (hin : ∀ t ∈ ts, since ≤ t ∧ t ≤ since + secs)
    (hmany : config.limit + secs * config.limit / config.windowSecs + 1 < ts.length) :
    ¬ ∀ s₀ h s, Limited config.holder config.limit config.windowSecs s₀ → Run rateLimits.Step s₀ h s →
      Along (rateLimits.WhenDone fun _ op => ¬ op.Configures config.holder) h →
        RateBound config.holder config.limit config.windowSecs h s := by
  intro hclaim
  obtain ⟨h, s, hr, hok, htimes⟩ := hd.run (v := config.holder) (s := bucketStart w config bucket now) .nil
    (List.forall_mem_nil _) (by simp [bucketStart, RateLimits.getVerificationRateLimit])
    (by simp [bucketStart]) rfl
  have hrate := (hclaim _ h s (bucketStart_limited w hclock htokens hlast) hr hok).rate since secs
  have hall : (attempts config.holder h).countP (fun t => since ≤ t ∧ t ≤ since + secs) = ts.length := by
    rw [htimes]
    simp only [attempts, Component.replay_nil, List.append_nil, List.countP_reverse]
    refine List.countP_eq_length.2 fun t ht => ?_
    simpa using hin t ht
  omega

/-- Refilling that leaves room takes the whole tokens and their seconds, rounded down. -/
theorem spend_within_room {elapsed earned : Nat} (hnow : now = bucket.lastRefillAt + elapsed)
    (hearned : elapsed * config.limit / config.windowSecs = earned + 1)
    (hroom : bucket.tokens + earned + 1 < config.limit) :
    bucket.spend config now = some ⟨bucket.tokens + earned,
      bucket.lastRefillAt + (earned + 1) * config.windowSecs / config.limit⟩ := by
  have helapsed : now - bucket.lastRefillAt = elapsed := by omega
  have hrefill : bucket.refill config now = ⟨bucket.tokens + (earned + 1),
      bucket.lastRefillAt + (earned + 1) * config.windowSecs / config.limit⟩ := by
    simp only [TokenBucket.refill, helapsed, hearned]
    rw [if_neg (by omega)]
  simp only [TokenBucket.spend, hrefill]
  rw [if_pos (by omega)]
  rfl

theorem spend_full (hlimit : 0 < config.limit)
    (hfull : config.limit ≤ bucket.tokens + (now - bucket.lastRefillAt) * config.limit / config.windowSecs) :
    bucket.spend config now = some ⟨config.limit - 1, now⟩ := by
  have hrefill : bucket.refill config now = ⟨config.limit, now⟩ := by
    simp only [TokenBucket.refill]
    rw [if_pos hfull]
  simp only [TokenBucket.spend, hrefill]
  rw [if_pos (by omega)]

/-- Without time in between an attempt only takes its token. -/
theorem spend_at_once (htokens : 0 < bucket.tokens) (hle : bucket.tokens ≤ config.limit) :
    bucket.spend config bucket.lastRefillAt = some ⟨bucket.tokens - 1, bucket.lastRefillAt⟩ := by
  rcases Nat.lt_or_ge bucket.tokens config.limit with hroom | hbrim
  · have hrefill : bucket.refill config bucket.lastRefillAt = bucket := by
      simp only [TokenBucket.refill, Nat.sub_self, Nat.zero_mul, Nat.zero_div, Nat.add_zero]
      rw [if_neg (by omega)]
    simp only [TokenBucket.spend, hrefill]
    rw [if_pos (Nat.pos_iff_ne_zero.1 htokens)]
  · have heq : bucket.tokens = config.limit := by omega
    rw [spend_full (by omega) (by simp only [Nat.sub_self, Nat.zero_mul, Nat.zero_div]; omega), heq]

/-! ### A window longer than the limit

The bucket starts empty. A token takes between `q` and `q + 1` seconds, and the
clock moves `q` seconds for it: from the first token on, one can be spent every
`q` seconds.
-/

theorem drains_stairs {q : Nat} (hq : config.windowSecs / config.limit = q) (hlimit : 0 < config.limit)
    (hless : config.limit < config.windowSecs) (hdvd : ¬ config.limit ∣ config.windowSecs) (k i : Nat)
    (hnow : now ≤ (i + 1) * q + 1) (hclock : (i + k) * q + 1 ≤ u64Max) :
    Drains config ⟨0, i * q⟩ now ((List.range' i k).map fun j => (j + 1) * q + 1) := by
  have hone : config.limit ≠ 1 := fun h => hdvd (h ▸ Nat.one_dvd _)
  have hpos : 0 < q := hq ▸ Nat.div_pos hless.le hlimit
  have hrest : 0 < config.windowSecs % config.limit :=
    Nat.pos_of_ne_zero fun h => hdvd (Nat.dvd_of_mod_eq_zero h)
  have hmod := Nat.mod_lt config.windowSecs hlimit
  have hdiv := Nat.div_add_mod config.windowSecs config.limit
  rw [hq] at hdiv
  have hscale : config.limit * 1 ≤ config.limit * q := Nat.mul_le_mul_left _ hpos
  have hnext : (q + 1) * config.limit = config.limit * q + config.limit := by
    rw [Nat.add_mul, Nat.one_mul, Nat.mul_comm]
  have hearned : (q + 1) * config.limit / config.windowSecs = 0 + 1 := by
    refine Nat.div_eq_of_lt_le ?_ ?_
    · omega
    · rw [hnext]
      omega
  induction k generalizing i now with
  | zero => exact .nil
  | succ k ih =>
    have hstep : (i + 1) * q = i * q + q := by rw [Nat.add_mul, Nat.one_mul]
    have hspend := @spend_within_room config ⟨0, i * q⟩ ((i + 1) * q + 1) (q + 1) 0 (by simp only; omega) hearned
      (by simp only; omega)
    simp only [Nat.zero_add, Nat.one_mul, hq, ← hstep] at hspend
    have hsoon : (i + 1) * q ≤ (i + (k + 1)) * q := Nat.mul_le_mul_right q (by omega)
    rw [List.range'_succ, List.map_cons]
    refine .cons hnow (by omega) hspend (ih (i + 1) ?_ ?_)
    · have hlater : (i + 1) * q ≤ (i + 1 + 1) * q := Nat.mul_le_mul_right q (by omega)
      omega
    · rwa [Nat.add_right_comm]

theorem not_bound_of_longer_window (w : World) (hlimit : 0 < config.limit) (hless : config.limit < config.windowSecs)
    (hdvd : ¬ config.limit ∣ config.windowSecs) (hshort : config.windowSecs ≤ maxVerificationWindowSecs) :
    ¬ ∀ s₀ h s, Limited config.holder config.limit config.windowSecs s₀ → Run rateLimits.Step s₀ h s →
      Along (rateLimits.WhenDone fun _ op => ¬ op.Configures config.holder) h →
        RateBound config.holder config.limit config.windowSecs h s := by
  obtain ⟨q, hq⟩ : ∃ q, config.windowSecs / config.limit = q := ⟨_, rfl⟩
  obtain ⟨n, hn⟩ : ∃ n, config.limit * config.windowSecs = n := ⟨_, rfl⟩
  have hmod := Nat.mod_lt config.windowSecs hlimit
  have hdiv := Nat.div_add_mod config.windowSecs config.limit
  have hrest : 0 < config.windowSecs % config.limit :=
    Nat.pos_of_ne_zero fun h => hdvd (Nat.dvd_of_mod_eq_zero h)
  rw [hq] at hdiv
  have hsmall : q ≤ config.windowSecs := hq ▸ Nat.div_le_self _ _
  have hclock : (0 + (n + 2)) * q + 1 ≤ u64Max := by
    have hn' : n ≤ maxVerificationWindowSecs * maxVerificationWindowSecs :=
      hn ▸ Nat.mul_le_mul (hless.le.trans hshort) hshort
    have hq' : (0 + (n + 2)) * q ≤ (maxVerificationWindowSecs * maxVerificationWindowSecs + 2) *
      maxVerificationWindowSecs := Nat.mul_le_mul (by omega) (hsmall.trans hshort)
    refine (Nat.add_le_add_right hq' 1).trans ?_
    decide
  have hd : Drains config ⟨0, 0 * q⟩ (q + 1) _ := drains_stairs hq hlimit hless hdvd (n + 2) 0 (by omega) hclock
  rw [Nat.zero_mul] at hd
  refine not_bound_of_drains w hd ?_ (Nat.zero_le _) (Nat.zero_le _) (q + 1) ((n + 1) * q) ?_ ?_
  · have hfirst : 1 * q ≤ (0 + (n + 2)) * q := Nat.mul_le_mul_right q (by omega)
    omega
  · intro t ht
    obtain ⟨j, hj, rfl⟩ := List.mem_map.1 ht
    rw [List.mem_range'_1] at hj
    have hlow : 1 * q ≤ (j + 1) * q := Nat.mul_le_mul_right q (by omega)
    have hhigh : j * q ≤ (n + 1) * q := Nat.mul_le_mul_right q (by omega)
    rw [Nat.add_mul, Nat.one_mul] at hlow ⊢
    omega
  · rw [List.length_map, List.length_range']
    have hslow : (n + 1) * q * config.limit / config.windowSecs < n + 1 - config.limit := by
      have hroom : config.limit ≤ n + 1 := by
        have hle := Nat.mul_le_mul_left config.limit (show 1 ≤ config.windowSecs by omega)
        omega
      rw [Nat.div_lt_iff_lt_mul (by omega)]
      generalize config.windowSecs % config.limit = rest at hrest hdiv hmod
      have hwhole : (n + 1) * config.windowSecs = (n + 1) * q * config.limit + (n + 1) * rest := by
        rw [← hdiv, Nat.mul_add, Nat.mul_comm config.limit q, Nat.mul_assoc]
      have hgain : (n + 1) * 1 ≤ (n + 1) * rest := Nat.mul_le_mul_left _ hrest
      rw [Nat.sub_mul, hn]
      omega
    generalize (n + 1) * q * config.limit / config.windowSecs = earned at hslow ⊢
    omega

/-! ### A limit larger than the window

A second earns several tokens, and the clock stands still for them: as long as
the bucket is not full, every call earns that second again.
-/

/-- As long as the second is not over, there is a token; once it is, the bucket is full. -/
theorem drains_second {p : Nat} (hearned : 1 * config.limit / config.windowSecs = p + 1)
    (hused : (p + 1) * config.windowSecs / config.limit = 0) (k tokens last : Nat)
    (hcase : last = 0 ∧ k ≤ config.limit ∨ last = 1 ∧ k ≤ tokens) (htokens : tokens ≤ config.limit) :
    Drains config ⟨tokens, last⟩ 1 (List.replicate k 1) := by
  induction k generalizing tokens last with
  | zero => exact .nil
  | succ k ih =>
    rw [List.replicate_succ]
    rcases hcase with ⟨rfl, hk⟩ | ⟨rfl, hk⟩
    · by_cases hroom : tokens + p + 1 < config.limit
      · have hspend := @spend_within_room config ⟨tokens, 0⟩ 1 1 p rfl hearned hroom
        rw [hused] at hspend
        exact .cons (le_refl _) (by decide) hspend (ih _ _ (.inl ⟨rfl, by omega⟩) (by simp only; omega))
      · have hspend := @spend_full config ⟨tokens, 0⟩ 1 (by omega) (by simp only [Nat.sub_zero, hearned]; omega)
        exact .cons (le_refl _) (by decide) hspend (ih _ _ (.inr ⟨rfl, by omega⟩) (by omega))
    · have hspend := @spend_at_once config ⟨tokens, 1⟩ (by simp only; omega) htokens
      exact .cons (le_refl _) (by decide) hspend (ih _ _ (.inr ⟨rfl, by simp only; omega⟩) (by simp only; omega))

theorem not_bound_of_larger_limit (w : World) (hwindow : 1 < config.windowSecs)
    (hless : config.windowSecs < config.limit) (hdvd : ¬ config.windowSecs ∣ config.limit) :
    ¬ ∀ s₀ h s, Limited config.holder config.limit config.windowSecs s₀ → Run rateLimits.Step s₀ h s →
      Along (rateLimits.WhenDone fun _ op => ¬ op.Configures config.holder) h →
        RateBound config.holder config.limit config.windowSecs h s := by
  obtain ⟨p, hp⟩ : ∃ p, config.limit / config.windowSecs = p + 1 :=
    Nat.exists_eq_succ_of_ne_zero (Nat.div_pos hless.le (by omega)).ne'
  have hearned : 1 * config.limit / config.windowSecs = p + 1 := by rw [Nat.one_mul, hp]
  have hunder : (p + 1) * config.windowSecs < config.limit := by
    have hmul := Nat.div_mul_le_self config.limit config.windowSecs
    rw [hp] at hmul
    refine lt_of_le_of_ne hmul fun heq => hdvd ⟨p + 1, ?_⟩
    rw [Nat.mul_comm, heq]
  have hused : (p + 1) * config.windowSecs / config.limit = 0 := Nat.div_eq_of_lt hunder
  have htwice : (p + 1) * 2 ≤ (p + 1) * config.windowSecs := Nat.mul_le_mul_left _ hwindow
  -- two attempts beside those of a full bucket
  have hspend₁ := @spend_within_room config ⟨config.limit - 2 * (p + 1), 0⟩ 1 1 p rfl hearned (by simp only; omega)
  have hspend₂ := @spend_within_room config ⟨config.limit - 2 * (p + 1) + p, 0⟩ 1 1 p rfl hearned (by simp only; omega)
  rw [hused] at hspend₁ hspend₂
  have hd : Drains config ⟨config.limit - 2 * (p + 1), 0⟩ 1 (1 :: 1 :: List.replicate config.limit 1) :=
    .cons (le_refl _) (by decide) hspend₁ (.cons (le_refl _) (by decide) hspend₂
      (drains_second hearned hused _ _ _ (.inl ⟨rfl, le_refl _⟩) (by simp only; omega)))
  refine not_bound_of_drains w hd (by decide) (by simp only; omega) (Nat.zero_le _) 1 0 ?_ ?_
  · intro t ht
    simp only [List.mem_cons, List.mem_replicate] at ht
    omega
  · simp only [List.length_cons, List.length_replicate, Nat.zero_mul, Nat.zero_div]
    omega

end

/-! ## The limit -/

/-- The attempts of every run keep to the rate exactly if the limit divides the window or the window the limit. -/
theorem verification_rate_iff {limit window : Nat} (hlimit : limit ≠ 0 ∧ limit ≤ maxVerificationLimit)
    (hwindow : minVerificationWindowSecs ≤ window ∧ window ≤ maxVerificationWindowSecs) (v : Address) :
    (∀ s₀ h s, Limited v limit window s₀ → Run rateLimits.Step s₀ h s →
      Along (rateLimits.WhenDone fun _ op => ¬ op.Configures v) h → RateBound v limit window h s) ↔
        limit ∣ window ∨ window ∣ limit := by
  have hpos : 0 < limit := Nat.pos_of_ne_zero hlimit.1
  have hlong : 60 ≤ window := hwindow.1
  constructor
  · intro hclaim
    by_contra hneither
    rw [not_or] at hneither
    rcases Nat.lt_trichotomy limit window with hless | rfl | hmore
    · exact @not_bound_of_longer_window ⟨v, limit, window, 0⟩ sampleWorld hpos hless hneither.1 hwindow.2 hclaim
    · exact hneither.1 (Nat.dvd_refl _)
    · exact @not_bound_of_larger_limit ⟨v, limit, window, 0⟩ sampleWorld (by simp only; omega) hmore hneither.2 hclaim
  · intro hdvd s₀ h s h0 hr hok
    obtain ⟨hl, hm⟩ := attempts_metered (by omega) hdvd h0 hr hok
    refine ⟨fun since secs => ?_, hl.bucket, fun b hb _ h' s' hr' hok' hlater =>
      refilled_in_a_window (by omega) hl hb hr' hok' hlater⟩
    have hrate := hm.countP_le (by omega) since (since + secs)
    rw [Nat.add_sub_cancel_left] at hrate
    omega

/-- A full bucket with the default limit and window. -/
def defaultBucket : Situated World RateLimits := bucketStart sampleWorld ⟨2, 10, 3600, 0⟩ ⟨10, 0⟩ 1000000

/-- Three attempts on it. -/
def threeAttempts : List (List Address × RateLimitOp) :=
  [([], .consumeVerificationAttempt 2), ([], .consumeVerificationAttempt 2), ([], .consumeVerificationAttempt 2)]

theorem verification_rate_default :
    RateBound 2 10 3600 (rateLimits.trace defaultBucket [] threeAttempts)
        (rateLimits.play defaultBucket threeAttempts) ∧
      attempts 2 (rateLimits.trace defaultBucket [] threeAttempts) = [1000000, 1000000, 1000000] := by
  constructor
  · refine (verification_rate_iff ⟨by decide, by decide⟩ ⟨by decide, by decide⟩ 2).2 (.inl (by decide)) _ _ _
      (@bucketStart_limited ⟨2, 10, 3600, 0⟩ ⟨10, 0⟩ 1000000 sampleWorld (by decide) (by decide) (by decide))
      (Component.run_play rateLimits .nil threeAttempts) ?_
    unfold Along
    decide +kernel
  · decide +kernel

/-- With a limit of 100 a minute, a bucket that is a second old lends that second to every call. -/
theorem verification_rate_exceeded :
    ¬ ∀ limit window v s₀ h s, (limit ≠ 0 ∧ limit ≤ maxVerificationLimit) →
      (minVerificationWindowSecs ≤ window ∧ window ≤ maxVerificationWindowSecs) → Limited v limit window s₀ →
        Run rateLimits.Step s₀ h s → Along (rateLimits.WhenDone fun _ op => ¬ op.Configures v) h →
          RateBound v limit window h s := by
  intro hclaim
  refine @not_bound_of_larger_limit ⟨2, 100, 60, 0⟩ sampleWorld (by decide) (by decide) (by decide) ?_
  intro s₀ h s
  exact hclaim 100 60 2 s₀ h s ⟨by decide, by decide⟩ ⟨by decide, by decide⟩

end QuorumCredit
