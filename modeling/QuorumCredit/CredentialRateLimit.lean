import QuorumCredit.Guards
import QuorumCredit.Host.Component
/-!
# The verification rate limit

`credential_rate_limit.rs`: every holder has a bucket of tokens, and a
verification attempt spends one. The bucket refills at `limit` per `window_secs`;
the refill clock advances by the whole seconds that the whole tokens took.
-/

open Host Function

namespace QuorumCredit

def defaultVerificationLimit : Nat := 10
def maxVerificationLimit : Nat := 1000
def defaultVerificationWindowSecs : Nat := 60 * 60
def minVerificationWindowSecs : Nat := 60
def maxVerificationWindowSecs : Nat := 7 * 24 * 60 * 60

structure VerificationRateLimit where
  holder : Address
  limit : Nat
  windowSecs : Nat
  updatedAt : Nat
deriving DecidableEq

/-- A holder's bucket: the token count as of `lastRefillAt`. -/
structure TokenBucket where
  tokens : Nat
  lastRefillAt : Nat
deriving DecidableEq

/-- The entries of the rate limits, by holder. -/
structure RateLimits where
  verificationRateLimit : Address → Option VerificationRateLimit
  verificationBucket : Address → Option TokenBucket

/-! ## The source -/

def validateVerificationLimit {σ : Type} (limit : Nat) : Contract σ Unit :=
  require (limit ≠ 0 ∧ limit ≤ maxVerificationLimit) (.error .invalidRateLimit)

def RateLimits.getVerificationRateLimit (r : RateLimits) (holder : Address) : VerificationRateLimit :=
  (r.verificationRateLimit holder).getD
    { holder, limit := defaultVerificationLimit, windowSecs := defaultVerificationWindowSecs, updatedAt := 0 }

def setVerificationRateLimit (holder : Address) (limit : Nat) : Contract RateLimits VerificationRateLimit := do
  validateVerificationLimit limit
  let ctx ← ask
  let config ← look (·.getVerificationRateLimit holder)
  let config := { config with limit, updatedAt := ctx.now }
  alter fun r : RateLimits => { r with verificationRateLimit := update r.verificationRateLimit holder (some config) }
  let bucket : TokenBucket := { tokens := limit, lastRefillAt := ctx.now }
  alter fun r : RateLimits => { r with verificationBucket := update r.verificationBucket holder (some bucket) }
  return config

def setVerificationWindow (holder : Address) (windowSecs : Nat) : Contract RateLimits VerificationRateLimit := do
  require (minVerificationWindowSecs ≤ windowSecs ∧ windowSecs ≤ maxVerificationWindowSecs)
    (.error .invalidRateLimitWindow)
  let ctx ← ask
  let config ← look (·.getVerificationRateLimit holder)
  let config := { config with windowSecs, updatedAt := ctx.now }
  alter fun r : RateLimits => { r with verificationRateLimit := update r.verificationRateLimit holder (some config) }
  return config

/-- The stored bucket, or a full one if the holder has never been limited. -/
def RateLimits.loadBucket (r : RateLimits) (holder : Address) (limit now : Nat) : TokenBucket :=
  (r.verificationBucket holder).getD { tokens := limit, lastRefillAt := now }

/-- The products are computed in 128 bits, where they fit. -/
def TokenBucket.refill (bucket : TokenBucket) (config : VerificationRateLimit) (now : Nat) : TokenBucket :=
  let elapsed := now - bucket.lastRefillAt
  let earned := elapsed * config.limit / config.windowSecs
  let total := bucket.tokens + earned
  if config.limit ≤ total then { tokens := config.limit, lastRefillAt := now }
  else
    -- rounded down: a fraction of the last second is earned again
    let usedSecs := earned * config.windowSecs / config.limit
    { tokens := total, lastRefillAt := bucket.lastRefillAt + usedSecs }

def consumeVerificationAttempt (holder : Address) : Contract RateLimits Nat := do
  let config ← look (·.getVerificationRateLimit holder)
  let ctx ← ask
  let stored ← look (·.loadBucket holder config.limit ctx.now)
  let bucket := stored.refill config ctx.now
  require (bucket.tokens ≠ 0) (.error .credentialRateLimitExceeded)
  let bucket := { bucket with tokens := bucket.tokens - 1 }
  alter fun r : RateLimits => { r with verificationBucket := update r.verificationBucket holder (some bucket) }
  return bucket.tokens

def RateLimits.getAvailableAttempts (r : RateLimits) (holder : Address) (now : Nat) : Nat :=
  let config := r.getVerificationRateLimit holder
  ((r.loadBucket holder config.limit now).refill config now).tokens

/-! ## Runs -/

/-- The calls that write the rate limits. A batch that sets a limit does what the holder's own call does. -/
inductive RateLimitOp where
  | setVerificationRateLimit (holder : Address) (limit : Nat)
  | setRateLimitWindow (holder : Address) (windowSecs : Nat)
  | consumeVerificationAttempt (holder : Address)

def RateLimitOp.run : RateLimitOp → Contract RateLimits Unit
  | .setVerificationRateLimit holder limit => do
    requireAuth holder
    discard (QuorumCredit.setVerificationRateLimit holder limit)
  | .setRateLimitWindow holder windowSecs => do
    requireAuth holder
    discard (setVerificationWindow holder windowSecs)
  | .consumeVerificationAttempt holder => discard (QuorumCredit.consumeVerificationAttempt holder)

/-- The rate limits as a part of the contract. The ledger clock is a 64-bit number and does not go back. -/
def rateLimits : Component World (List Address) Context Failure RateLimits RateLimitOp where
  run := RateLimitOp.run
  context w signers := { w with signers }
  drift w r w' r' := w.now ≤ w'.now ∧ w'.now ≤ u64Max ∧ r' = r

abbrev RateHistory := List (Situated World RateLimits × Event World (List Address) RateLimits RateLimitOp)

/-! ## Refilling -/

namespace TokenBucket

variable {bucket : TokenBucket} {config : VerificationRateLimit} {now : Nat}

/-- What the bucket is worth at `now`, a token being worth the window: every second earns the limit. -/
def credit (bucket : TokenBucket) (config : VerificationRateLimit) (now : Nat) : Nat :=
  bucket.tokens * config.windowSecs + (now - bucket.lastRefillAt) * config.limit

/-- The bucket without one token, if it has one after refilling. -/
def spend (bucket : TokenBucket) (config : VerificationRateLimit) (now : Nat) : Option TokenBucket :=
  let refilled := bucket.refill config now
  if refilled.tokens ≠ 0 then some { refilled with tokens := refilled.tokens - 1 } else none

theorem refill_tokens_le : (bucket.refill config now).tokens ≤ config.limit := by
  simp only [refill]
  split
  case isTrue => exact le_refl _
  case isFalse hfull =>
    simp only
    omega

/-- The seconds that whole tokens took have passed. -/
theorem usedSecs_le (elapsed limit window : Nat) : elapsed * limit / window * window / limit ≤ elapsed := by
  rcases Nat.eq_zero_or_pos limit with rfl | hpos
  · rw [Nat.div_zero]
    exact Nat.zero_le _
  · have htokens : elapsed * limit / window * window ≤ elapsed * limit := Nat.div_mul_le_self _ _
    exact Nat.div_le_of_le_mul (by rwa [Nat.mul_comm limit])

theorem refill_last_le (hlast : bucket.lastRefillAt ≤ now) : (bucket.refill config now).lastRefillAt ≤ now := by
  simp only [refill]
  split
  case isTrue => exact le_refl _
  case isFalse =>
    have hused := usedSecs_le (now - bucket.lastRefillAt) config.limit config.windowSecs
    simp only
    omega

/-- A window after it was last refilled the bucket is full. -/
theorem refill_full (hwindow : 0 < config.windowSecs) (hlast : bucket.lastRefillAt + config.windowSecs ≤ now) :
    bucket.refill config now = { tokens := config.limit, lastRefillAt := now } := by
  have helapsed : config.windowSecs ≤ now - bucket.lastRefillAt := by omega
  have hearned : config.limit ≤ (now - bucket.lastRefillAt) * config.limit / config.windowSecs := by
    rw [Nat.le_div_iff_mul_le hwindow, Nat.mul_comm]
    exact Nat.mul_le_mul_right _ helapsed
  simp only [refill]
  rw [if_pos (by omega)]

/-- Where the limit divides the window, or the window the limit, whole tokens take whole seconds. -/
theorem usedSecs_exact {limit window : Nat} (hdvd : limit ∣ window ∨ window ∣ limit) (elapsed : Nat) :
    elapsed * limit / window * window / limit * limit = elapsed * limit / window * window := by
  refine Nat.div_mul_cancel ?_
  rcases hdvd with hdvd | hdvd
  · exact hdvd.mul_left _
  · rw [Nat.div_mul_cancel (hdvd.mul_left elapsed)]
    exact Nat.dvd_mul_left limit elapsed

/-- A refill that does not fill the bucket keeps its worth: the time that its tokens took is used up. -/
theorem refill_credit_eq (hdvd : config.limit ∣ config.windowSecs ∨ config.windowSecs ∣ config.limit)
    (hfull : ¬ config.limit ≤ bucket.tokens + (now - bucket.lastRefillAt) * config.limit / config.windowSecs) :
    (bucket.refill config now).credit config now = bucket.credit config now := by
  have hexact := usedSecs_exact hdvd (now - bucket.lastRefillAt)
  have hused := usedSecs_le (now - bucket.lastRefillAt) config.limit config.windowSecs
  simp only [refill]
  rw [if_neg hfull]
  simp only [credit, Nat.add_mul]
  generalize (now - bucket.lastRefillAt) * config.limit / config.windowSecs * config.windowSecs / config.limit =
    used at hexact hused
  have hleft : (now - (bucket.lastRefillAt + used)) * config.limit + used * config.limit =
      (now - bucket.lastRefillAt) * config.limit := by
    rw [← Nat.add_mul]
    congr 1
    omega
  omega

theorem refill_credit_le (hdvd : config.limit ∣ config.windowSecs ∨ config.windowSecs ∣ config.limit) :
    (bucket.refill config now).credit config now ≤ bucket.credit config now := by
  by_cases hfull : config.limit ≤ bucket.tokens + (now - bucket.lastRefillAt) * config.limit / config.windowSecs
  · have hworth := Nat.mul_le_mul_right config.windowSecs hfull
    have hearned := Nat.div_mul_le_self ((now - bucket.lastRefillAt) * config.limit) config.windowSecs
    rw [Nat.add_mul] at hworth
    simp only [refill]
    rw [if_pos hfull]
    simp only [credit, Nat.sub_self, Nat.zero_mul]
    omega
  · exact (refill_credit_eq hdvd hfull).le

/-- After refilling, the bucket is worth no more than its capacity. -/
theorem refill_credit_capped (hwindow : 0 < config.windowSecs)
    (hdvd : config.limit ∣ config.windowSecs ∨ config.windowSecs ∣ config.limit) :
    (bucket.refill config now).credit config now ≤ config.limit * config.windowSecs := by
  by_cases hfull : config.limit ≤ bucket.tokens + (now - bucket.lastRefillAt) * config.limit / config.windowSecs
  · simp only [refill]
    rw [if_pos hfull]
    simp only [credit, Nat.sub_self, Nat.zero_mul, Nat.add_zero, le_refl]
  · rw [refill_credit_eq hdvd hfull]
    have hrest := Nat.mod_lt ((now - bucket.lastRefillAt) * config.limit) hwindow
    have hdiv := Nat.div_add_mod ((now - bucket.lastRefillAt) * config.limit) config.windowSecs
    rw [Nat.mul_comm] at hdiv
    have htokens := Nat.mul_le_mul_right config.windowSecs (Nat.lt_of_not_le hfull)
    rw [Nat.succ_mul, Nat.add_mul] at htokens
    simp only [credit]
    omega

theorem of_spend {b : TokenBucket} (h : bucket.spend config now = some b) :
    (bucket.refill config now).tokens = b.tokens + 1 ∧ (bucket.refill config now).lastRefillAt = b.lastRefillAt := by
  simp only [spend] at h
  split at h
  case isTrue hsome =>
    cases h
    exact ⟨by simp only; omega, rfl⟩
  case isFalse => cases h

/-- Spending a token takes its worth off the bucket, and off its capacity. -/
theorem credit_of_spend {b : TokenBucket} (hwindow : 0 < config.windowSecs)
    (hdvd : config.limit ∣ config.windowSecs ∨ config.windowSecs ∣ config.limit)
    (h : bucket.spend config now = some b) :
    b.credit config now + config.windowSecs ≤ bucket.credit config now ∧
      b.credit config now + config.windowSecs ≤ config.limit * config.windowSecs := by
  obtain ⟨htokens, hlast⟩ := of_spend h
  have hworth : (bucket.refill config now).credit config now = b.credit config now + config.windowSecs := by
    rw [credit, credit, htokens, hlast, Nat.add_mul, Nat.one_mul]
    omega
  rw [← hworth]
  exact ⟨refill_credit_le hdvd, refill_credit_capped hwindow hdvd⟩

end TokenBucket

end QuorumCredit
