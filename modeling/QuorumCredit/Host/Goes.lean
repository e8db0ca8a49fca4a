import QuorumCredit.Host.Arith
import QuorumCredit.Host.Bank
/-!
# Total correctness

`Goes x w s Q`: `x` goes through, and the result and the state it ends in meet
`Q`. Every rule is an equivalence, so rewriting a body with them leaves the exact
condition under which it goes through. `Goes` is `Yields` together with a run
that succeeds.
-/

namespace Host

variable {ω ε σ β α γ : Type}

/-- `x` goes through and ends with a result and a state satisfying `Q`. -/
def Goes (x : Tx ω ε σ α) (w : ω) (s : σ) (Q : α → σ → Prop) : Prop :=
  ∃ a t, x w s = .ok (a, t) ∧ Q a t

variable {x : Tx ω ε σ α}

theorem Goes.mono {w s} {Q R : α → σ → Prop} (h : Goes x w s Q) (hi : ∀ a t, Q a t → R a t) : Goes x w s R := by
  obtain ⟨a, t, hx, hq⟩ := h
  exact ⟨a, t, hx, hi a t hq⟩

/-- What every run ends in, the run that goes through ends in. -/
theorem Goes.and_yields {w s} {Q R : α → σ → Prop} (h : Goes x w s Q) (hy : Yields x w s R) :
    Goes x w s fun a t => Q a t ∧ R a t := by
  obtain ⟨a, t, hx, hq⟩ := h
  exact ⟨a, t, hx, hq, hy a t hx⟩

theorem Goes.of_run {w s a t} {Q : α → σ → Prop} (h : x w s = .ok (a, t)) (hq : Q a t) : Goes x w s Q :=
  ⟨a, t, h, hq⟩

/-- Running `x` tells whether it goes through. -/
theorem goes_of_toBool {w s} (h : (x w s).toBool = true) : Goes x w s fun _ _ => True := by
  cases hx : x w s with
  | ok p => exact ⟨p.1, p.2, hx, trivial⟩
  | error e => rw [hx] at h; cases h

/-- Where it is known when `x` goes through and what it then does, every run of it does that. -/
theorem yields_of_goes {w s a t} {p : Prop} (h : ∀ Q, Goes x w s Q ↔ p ∧ Q a t) (Q : α → σ → Prop) :
    Yields x w s Q ↔ (p → Q a t) := by
  constructor
  · intro hy hp
    obtain ⟨b, u, hx, rfl, rfl⟩ := (h fun b u => b = a ∧ u = t).2 ⟨hp, rfl, rfl⟩
    exact hy _ _ hx
  · intro hq b u hx
    obtain ⟨hp, rfl, rfl⟩ := (h fun c v => b = c ∧ u = v).1 (.of_run hx ⟨rfl, rfl⟩)
    exact hq hp

@[simp] theorem goes_pure (a : α) (w : ω) (s : σ) (Q : α → σ → Prop) :
    Goes (pure a : Tx ω ε σ α) w s Q ↔ Q a s :=
  ⟨fun ⟨_, _, hx, hq⟩ => by cases hx; exact hq, fun hq => ⟨a, s, rfl, hq⟩⟩

@[simp] theorem goes_bind (x : Tx ω ε σ α) (f : α → Tx ω ε σ γ) (w s) (Q : γ → σ → Prop) :
    Goes (x >>= f) w s Q ↔ Goes x w s fun a t => Goes (f a) w t Q := by
  constructor
  · rintro ⟨c, u, hb, hq⟩
    obtain ⟨a, t, hx, hf⟩ := bind_ok hb
    exact ⟨a, t, hx, c, u, hf, hq⟩
  · rintro ⟨a, t, hx, c, u, hf, hq⟩
    exact ⟨c, u, (run_bind_ok hx f).trans hf, hq⟩

@[simp] theorem goes_map (x : Tx ω ε σ α) (f : α → γ) (w s) (Q : γ → σ → Prop) :
    Goes (f <$> x) w s Q ↔ Goes x w s fun a t => Q (f a) t := by
  rw [← bind_pure_comp, goes_bind]
  simp only [goes_pure]

@[simp] theorem goes_ask (w : ω) (s : σ) (Q : ω → σ → Prop) : Goes (ask : Tx ω ε σ ω) w s Q ↔ Q w s :=
  ⟨fun ⟨_, _, hx, hq⟩ => by cases hx; exact hq, fun hq => ⟨w, s, rfl, hq⟩⟩

@[simp] theorem goes_look (f : σ → α) (w : ω) (s : σ) (Q : α → σ → Prop) :
    Goes (look f : Tx ω ε σ α) w s Q ↔ Q (f s) s :=
  ⟨fun ⟨_, _, hx, hq⟩ => by cases hx; exact hq, fun hq => ⟨f s, s, rfl, hq⟩⟩

@[simp] theorem goes_alter (f : σ → σ) (w : ω) (s : σ) (Q : Unit → σ → Prop) :
    Goes (alter f : Tx ω ε σ Unit) w s Q ↔ Q () (f s) :=
  ⟨fun ⟨_, _, hx, hq⟩ => by cases hx; exact hq, fun hq => ⟨(), f s, rfl, hq⟩⟩

@[simp] theorem goes_fail (e : ε) (w : ω) (s : σ) (Q : α → σ → Prop) : ¬ Goes (fail e : Tx ω ε σ α) w s Q := by
  rintro ⟨_, _, hx, _⟩
  cases hx

@[simp] theorem goes_require (c : Prop) [Decidable c] (e : ε) (w : ω) (s : σ) (Q : Unit → σ → Prop) :
    Goes (require c e : Tx ω ε σ Unit) w s Q ↔ c ∧ Q () s := by
  unfold require
  split
  case isTrue hc => simp [hc]
  case isFalse hc => simp [hc]

@[simp] theorem goes_orFail (o : Option α) (e : ε) (w : ω) (s : σ) (Q : α → σ → Prop) :
    Goes (orFail o e : Tx ω ε σ α) w s Q ↔ ∃ a, o = some a ∧ Q a s := by
  cases o <;> simp [orFail]

theorem goes_ite (c : Prop) [Decidable c] (x y : Tx ω ε σ α) (w s) (Q : α → σ → Prop) :
    Goes (if c then x else y) w s Q ↔ (c → Goes x w s Q) ∧ (¬ c → Goes y w s Q) := by
  split <;> simp [*]

@[simp] theorem goes_zoom [Part σ β] (x : Tx ω ε β α) (w : ω) (s : σ) (Q : α → σ → Prop) :
    Goes (zoom x) w s Q ↔ Goes x w (Part.get s) fun a b => Q a (Part.set b s) := by
  constructor
  · rintro ⟨a, t, hz, hq⟩
    obtain ⟨b, hx, rfl⟩ := zoom_ok hz
    exact ⟨a, b, hx, hq⟩
  · rintro ⟨a, b, hx, hq⟩
    exact ⟨a, _, zoom_of_ok hx, hq⟩

@[simp] theorem goes_i128 (e : ε) (x : Int) (w : ω) (s : σ) (Q : Int → σ → Prop) :
    Goes (i128 e x : Tx ω ε σ Int) w s Q ↔ FitsI128 x ∧ Q x s := by
  simp [i128]

@[simp] theorem goes_u64 (e : ε) (n : Nat) (w : ω) (s : σ) (Q : Nat → σ → Prop) :
    Goes (u64 e n : Tx ω ε σ Nat) w s Q ↔ n ≤ u64Max ∧ Q n s := by
  simp [u64]

@[simp] theorem goes_divI128 (e : ε) (x y : Int) (w : ω) (s : σ) (Q : Int → σ → Prop) :
    Goes (divI128 e x y : Tx ω ε σ Int) w s Q ↔ y ≠ 0 ∧ FitsI128 (x.tdiv y) ∧ Q (x.tdiv y) s := by
  simp [divI128]

/-- No partial sum of the list, added to `acc` from the left, overflows. -/
def SumFits (acc : Int) : List Int → Prop
  | [] => True
  | x :: xs => FitsI128 (acc + x) ∧ SumFits (acc + x) xs

@[simp] theorem goes_sumI128 (e : ε) (xs : List Int) (acc : Int) (w : ω) (s : σ) (Q : Int → σ → Prop) :
    Goes (sumI128 e acc xs : Tx ω ε σ Int) w s Q ↔ SumFits acc xs ∧ Q (acc + xs.sum) s := by
  induction xs generalizing acc with
  | nil => simp [sumI128, SumFits]
  | cons x xs ih =>
    simp only [sumI128, goes_bind, goes_i128, ih, SumFits, List.sum_cons, Int.add_assoc, and_assoc]

@[simp] theorem Bank.goes_transfer {Tk Ac : Type} [DecidableEq Tk] [DecidableEq Ac] (e : ε) (token : Tk) (src dst : Ac)
    (amount : Int) (w : ω) (b : Bank Tk Ac) (Q : Unit → Bank Tk Ac → Prop) :
    Goes (Bank.transfer e token src dst amount : Tx ω ε _ Unit) w b Q ↔
      (0 ≤ amount ∧ amount ≤ b.balance token src) ∧ Q () (b.move token src dst amount) := by
  simp [Bank.transfer]

end Host
