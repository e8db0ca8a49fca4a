import Mathlib.Algebra.Order.BigOperators.Group.List
import Mathlib.Algebra.BigOperators.Ring.List
import Mathlib.Algebra.Order.Ring.Int
import Mathlib.Tactic.Linarith
import Mathlib.Tactic.Ring
/-!
# Shares of a whole

Parts in proportion to others, each rounded down, add up to at most the whole in
the proportion of the sum, and to less than one each below it. A proportion that is
itself rounded down, to so many parts of a scale, makes a part smaller still.
-/

namespace Host

variable {α : Type} {xs : List α}

theorem tdiv_mul_le {x y : Int} (hx : 0 ≤ x) (hy : 0 < y) : x.tdiv y * y ≤ x := by
  rw [Int.tdiv_eq_ediv_of_nonneg hx]
  exact Int.ediv_mul_le x hy.ne'

/-- If each part is at most its base's proportion of the whole, and the bases are within
the total, the parts are within the whole. -/
theorem sum_le_of_prorata {part base : α → Int} {whole total : Int} (htotal : 0 < total) (hwhole : 0 ≤ whole)
    (hpart : ∀ x ∈ xs, part x * total ≤ base x * whole) (hbase : (xs.map base).sum ≤ total) :
    (xs.map part).sum ≤ whole := by
  have hscaled : (xs.map part).sum * total ≤ (xs.map base).sum * whole := by
    rw [← List.sum_map_mul_right, ← List.sum_map_mul_right]
    exact List.sum_le_sum hpart
  have hwithin : (xs.map base).sum * whole ≤ whole * total := by
    rw [mul_comm whole total]
    exact mul_le_mul_of_nonneg_right hbase hwhole
  exact le_of_mul_le_mul_right (hscaled.trans hwithin) htotal

section Scaled

variable {whole base total scale : Int}

/-- The part by a proportion rounded to a scale is at most the base's proportion of the whole. -/
theorem scaled_part_mul_le (hwhole : 0 ≤ whole) (htotal : 0 < total) (hscale : 0 < scale) :
    whole * (scale * base / total) / scale * total ≤ base * whole := by
  have hproportion : total * (scale * base / total) ≤ scale * base := by
    have hsplit := Int.mul_ediv_add_emod (scale * base) total
    have hrest := Int.emod_nonneg (scale * base) htotal.ne'
    omega
  have hpart : whole * (scale * base / total) / scale * scale ≤ whole * (scale * base / total) :=
    Int.ediv_mul_le _ hscale.ne'
  refine (Int.mul_le_mul_left hscale).1 ?_
  calc scale * (whole * (scale * base / total) / scale * total)
      = whole * (scale * base / total) / scale * scale * total := by ring
    _ ≤ whole * (scale * base / total) * total := Int.mul_le_mul_of_nonneg_right hpart htotal.le
    _ = whole * (total * (scale * base / total)) := by ring
    _ ≤ whole * (scale * base) := Int.mul_le_mul_of_nonneg_left hproportion hwhole
    _ = scale * (base * whole) := by ring

/-- It is the part rounded down once exactly if what the proportion loses is lost anyway. -/
theorem le_scaled_part_iff (htotal : 0 < total) (hscale : 0 < scale) :
    whole * base / total ≤ whole * (scale * base / total) / scale ↔
      whole * (scale * base % total) ≤ scale * (whole * base % total) := by
  have hpart : total * (whole * base / total) = whole * base - whole * base % total := by
    have hsplit := Int.mul_ediv_add_emod (whole * base) total
    omega
  have hproportion : total * (scale * base / total) = scale * base - scale * base % total := by
    have hsplit := Int.mul_ediv_add_emod (scale * base) total
    omega
  rw [Int.le_ediv_iff_mul_le hscale, ← Int.mul_le_mul_left htotal, ← mul_assoc, hpart, mul_left_comm total whole,
    hproportion]
  constructor
  · intro h
    linarith
  · intro h
    linarith

end Scaled

/-- What is left of a sum without one of its members. -/
theorem sum_filter_ne_add_le [DecidableEq α] {f : α → Int} (hf : ∀ x, 0 ≤ f x) {a : α} (ha : a ∈ xs) :
    ((xs.filter (· ≠ a)).map f).sum + f a ≤ (xs.map f).sum := by
  have hfilter : ∀ ys : List α, ((ys.filter (· ≠ a)).map f).sum ≤ (ys.map f).sum := fun ys =>
    (List.filter_sublist.map f).sum_le_sum (List.forall_mem_map.2 fun x _ => hf x)
  induction xs with
  | nil => cases ha
  | cons x xs ih =>
    rw [List.map_cons, List.sum_cons]
    rcases List.mem_cons.1 ha with rfl | ha
    · have hrest := hfilter xs
      simp only [ne_eq, not_true_eq_false, decide_false, Bool.false_eq_true, not_false_eq_true,
        List.filter_cons_of_neg]
      simp only [ne_eq] at hrest
      omega
    · have hrest := ih ha
      have hx := hf x
      by_cases hxa : x = a
      · rw [List.filter_cons_of_neg (by simp [hxa])]
        omega
      · rw [List.filter_cons_of_pos (by simp [hxa]), List.map_cons, List.sum_cons]
        omega

end Host
