import Mathlib.Algebra.Order.Ring.Nat
import Mathlib.Data.List.Basic
/-!
# Metered admissions

A supply grows at `rate` a tick up to `cap`, and every admission takes `cost` of
it. Whatever the order of admissions and idle stretches, no stretch of time sees
more taken than the cap and what the stretch has earned.
-/

namespace Host

variable {cost rate cap now credit : Nat} {times : List Nat}

/-- Admissions at `times`, newest first, that leave `credit` at `now`. -/
structure Metered (cost rate cap : Nat) (times : List Nat) (now credit : Nat) : Prop where
  past : ∀ t ∈ times, t ≤ now
  capped : credit ≤ cap
  spent : ∀ since ≤ now, times.countP (fun t => since ≤ t) * cost + credit ≤ cap + (now - since) * rate
  within : ∀ since till,
    times.countP (fun t => since ≤ t ∧ t ≤ till) * cost ≤ cap + (till - since) * rate

namespace Metered

theorem start (hcapped : credit ≤ cap) : Metered cost rate cap [] now credit where
  past := List.forall_mem_nil _
  capped := hcapped
  spent since _ := by
    rw [List.countP_nil]
    omega
  within since till := by
    rw [List.countP_nil]
    omega

/-- Time passes, and no more is earned than it is worth. -/
theorem wait (h : Metered cost rate cap times now credit) {now' credit' : Nat} (hnow : now ≤ now')
    (hearned : credit' ≤ credit + (now' - now) * rate) (hcapped : credit' ≤ cap) :
    Metered cost rate cap times now' credit' where
  past t ht := (h.past t ht).trans hnow
  capped := hcapped
  spent since hsince := by
    rcases Nat.lt_or_ge now since with hafter | hbefore
    · -- every admission is older than `since`
      have hnone : times.countP (fun t => since ≤ t) = 0 := by
        refine List.countP_eq_zero.2 fun t ht => ?_
        have hle := h.past t ht
        rw [decide_eq_true_eq]
        omega
      rw [hnone]
      omega
    · have hspent := h.spent since hbefore
      have hsplit : (now' - since) * rate = (now - since) * rate + (now' - now) * rate := by
        rw [← Nat.add_mul]
        congr 1
        omega
      omega
  within := h.within

theorem take (h : Metered cost rate cap times now credit) (hcost : cost ≤ credit) :
    Metered cost rate cap (now :: times) now (credit - cost) where
  past := List.forall_mem_cons.2 ⟨le_refl now, h.past⟩
  capped := (Nat.sub_le _ _).trans h.capped
  spent since hsince := by
    have hspent := h.spent since hsince
    rw [List.countP_cons_of_pos (by simpa using hsince), Nat.add_mul, Nat.one_mul]
    omega
  within since till := by
    have hwithin := h.within since till
    by_cases hin : since ≤ now ∧ now ≤ till
    · have hspent := h.spent since hin.1
      have hall : times.countP (fun t => since ≤ t ∧ t ≤ till) ≤ times.countP (fun t => since ≤ t) := by
        refine List.countP_mono_left fun t _ ht => ?_
        rw [decide_eq_true_eq] at ht ⊢
        exact ht.1
      have hcosts := Nat.mul_le_mul_right cost hall
      have hearned : (now - since) * rate ≤ (till - since) * rate := Nat.mul_le_mul_right rate (by omega)
      rw [List.countP_cons_of_pos (by simpa using hin), Nat.add_mul, Nat.one_mul]
      omega
    · rw [List.countP_cons_of_neg (by simpa using hin)]
      exact hwithin

/-- The number of admissions in a stretch of time, where the cap is a number of admissions. -/
theorem countP_le {n : Nat} (h : Metered cost rate (n * cost) times now credit) (hcost : 0 < cost)
    (since till : Nat) :
    times.countP (fun t => since ≤ t ∧ t ≤ till) ≤ n + (till - since) * rate / cost := by
  have hwithin := h.within since till
  calc times.countP (fun t => since ≤ t ∧ t ≤ till)
      ≤ (n * cost + (till - since) * rate) / cost := (Nat.le_div_iff_mul_le hcost).2 hwithin
    _ = n + (till - since) * rate / cost := by rw [Nat.mul_comm, Nat.mul_add_div hcost]

end Metered

end Host
