import QuorumCredit.Host.Tx
import Mathlib.Order.Basic
import Mathlib.Algebra.Order.Ring.Int
/-!
# Machine arithmetic

Amounts are signed 128-bit and times unsigned 64-bit integers, compiled with
overflow checks: a result out of range ends the transaction, or is clamped where
the code says `saturating`. The value is an `Int` or `Nat` and the check is
explicit: `i128 e x` is the value `x` of an expression, failing with `e` when
128 bits cannot hold it.
-/

namespace Host

def i128Min : Int := -(2 ^ 127)
def i128Max : Int := 2 ^ 127 - 1
def u64Max : Nat := 2 ^ 64 - 1
def u32Max : Nat := 2 ^ 32 - 1

/-- `x` as a 128-bit amount. -/
def FitsI128 (x : Int) : Prop := i128Min ≤ x ∧ x ≤ i128Max

instance (x : Int) : Decidable (FitsI128 x) := inferInstanceAs (Decidable (_ ∧ _))

variable {ω ε σ α : Type}

/-- The value of a 128-bit expression; `e` when it overflows. -/
def i128 (e : ε) (x : Int) : Tx ω ε σ Int := do
  require (FitsI128 x) e
  return x

/-- The value of a 64-bit expression; `e` when it overflows. -/
def u64 (e : ε) (n : Nat) : Tx ω ε σ Nat := do
  require (n ≤ u64Max) e
  return n

/-- The value of a 32-bit expression; `e` when it overflows. -/
def u32 (e : ε) (n : Nat) : Tx ω ε σ Nat := do
  require (n ≤ u32Max) e
  return n

/-- Truncating division; `e` on a zero divisor and on the one quotient out of range. -/
def divI128 (e : ε) (x y : Int) : Tx ω ε σ Int := do
  require (y ≠ 0) e
  i128 e (x.tdiv y)

/-- `saturating_add` and its siblings: the value clamped to the range. -/
def satI128 (x : Int) : Int := max i128Min (min i128Max x)

/-- The sum of a list, overflow-checked at each step from the left. -/
def sumI128 (e : ε) (acc : Int) : List Int → Tx ω ε σ Int
  | [] => pure acc
  | x :: xs => do
    let acc ← i128 e (acc + x)
    sumI128 e acc xs

theorem i128_of_fits (e : ε) {x : Int} (h : FitsI128 x) : (i128 e x : Tx ω ε σ Int) = pure x := by
  unfold i128 require
  rw [if_pos h, pure_bind]

theorem i128_of_not_fits (e : ε) {x : Int} (h : ¬ FitsI128 x) : (i128 e x : Tx ω ε σ Int) = fail e := by
  unfold i128 require
  rw [if_neg h]
  rfl

theorem run_i128 (e : ε) (x : Int) (w : ω) (s : σ) :
    (i128 e x : Tx ω ε σ Int) w s = if FitsI128 x then .ok (x, s) else .error e := by
  by_cases h : FitsI128 x
  · rw [i128_of_fits e h, if_pos h, run_pure]
  · rw [i128_of_not_fits e h, if_neg h, run_fail]

@[simp] theorem yields_i128 (e : ε) (x : Int) (w : ω) (s : σ) (Q : Int → σ → Prop) :
    Yields (i128 e x : Tx ω ε σ Int) w s Q ↔ (FitsI128 x → Q x s) := by
  simp [i128]

@[simp] theorem yields_u64 (e : ε) (n : Nat) (w : ω) (s : σ) (Q : Nat → σ → Prop) :
    Yields (u64 e n : Tx ω ε σ Nat) w s Q ↔ (n ≤ u64Max → Q n s) := by
  simp [u64]

@[simp] theorem yields_u32 (e : ε) (n : Nat) (w : ω) (s : σ) (Q : Nat → σ → Prop) :
    Yields (u32 e n : Tx ω ε σ Nat) w s Q ↔ (n ≤ u32Max → Q n s) := by
  simp [u32]

@[simp] theorem yields_divI128 (e : ε) (x y : Int) (w : ω) (s : σ) (Q : Int → σ → Prop) :
    Yields (divI128 e x y : Tx ω ε σ Int) w s Q ↔ (y ≠ 0 → FitsI128 (x.tdiv y) → Q (x.tdiv y) s) := by
  simp [divI128]

/-- A checked sum that goes through is the sum. -/
theorem yields_sumI128 (e : ε) (xs : List Int) (acc : Int) (w : ω) (s : σ) :
    Yields (sumI128 e acc xs : Tx ω ε σ Int) w s fun total s' => total = acc + xs.sum ∧ s' = s := by
  induction xs generalizing acc with
  | nil => simp [sumI128]
  | cons x xs ih =>
    simp only [sumI128, yields_bind, yields_i128]
    intro _
    refine (ih (acc + x)).mono ?_
    rintro total s' ⟨rfl, rfl⟩
    simp [Int.add_assoc]

theorem zoom_i128 {β : Type} [Part σ β] (e : ε) (x : Int) :
    (zoom (i128 e x : Tx ω ε β Int) : Tx ω ε σ Int) = i128 e x := by
  unfold i128
  rw [zoom_bind, zoom_require]
  simp only [zoom_pure]

end Host
