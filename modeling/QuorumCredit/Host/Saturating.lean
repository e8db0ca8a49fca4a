import QuorumCredit.Host.Arith
import Mathlib.Algebra.BigOperators.Group.List.Basic
/-!
# Saturating sums

A sum of amounts that are not negative, saturated at each step, is their sum or
the largest amount.
-/

namespace Host

theorem fits_satI128 (x : Int) : FitsI128 (satI128 x) := by
  unfold FitsI128 satI128 i128Min i128Max
  omega

theorem satI128_of_fits {x : Int} (h : FitsI128 x) : satI128 x = x := by
  obtain ⟨hl, hu⟩ := h
  unfold satI128
  omega

theorem satI128_of_nonneg {x : Int} (h : 0 ≤ x) : satI128 x = min i128Max x := by
  unfold satI128 i128Min i128Max
  omega

theorem satI128_nonneg {x : Int} (h : 0 ≤ x) : 0 ≤ satI128 x := by
  rw [satI128_of_nonneg h]
  exact le_min (by decide) h

/-- Saturating at each step is saturating at the end. -/
theorem satI128_add_satI128 {x y : Int} (hx : 0 ≤ x) (hy : 0 ≤ y) : satI128 (satI128 x + y) = satI128 (x + y) := by
  rw [satI128_of_nonneg hx, satI128_of_nonneg (by unfold i128Max; omega), satI128_of_nonneg (by omega)]
  omega

theorem foldl_satI128 {α : Type} (f : α → Int) {xs : List α} (hf : ∀ x ∈ xs, 0 ≤ f x) {acc : Int} (hacc : 0 ≤ acc) :
    xs.foldl (fun acc x => satI128 (acc + f x)) (satI128 acc) = satI128 (acc + (xs.map f).sum) := by
  induction xs generalizing acc with
  | nil => simp
  | cons x xs ih =>
    obtain ⟨hx, hxs⟩ := List.forall_mem_cons.1 hf
    rw [List.foldl_cons, satI128_add_satI128 hacc hx, ih hxs (by omega), List.map_cons, List.sum_cons, add_assoc]

end Host
