import QuorumCredit.Host.Totals
/-!
# A pot shared by weight

What is in the pot is claimed in shares proportional to the weights, each rounded
down. In whatever order the shares are taken, the pot holds the next one.
-/

open Function

namespace Host

/-- A pot of `whole`, shared by the weights. -/
structure Pot (α : Type) where
  weight : α → Int
  total : Int
  whole : Int

namespace Pot

variable {α : Type} {P : Pot α}

/-- The share of `a`, rounded down. -/
def share (P : Pot α) (a : α) : Int := (P.weight a * P.whole).tdiv P.total

/-- No weight is negative, and `total` is their sum. -/
structure Sound (P : Pot α) : Prop where
  total : Totals P.weight P.total
  weight : ∀ a, 0 ≤ P.weight a
  whole : 0 ≤ P.whole

namespace Sound

theorem total_nonneg (h : P.Sound) : 0 ≤ P.total := h.total.nonneg h.weight

theorem share_nonneg (h : P.Sound) (a : α) : 0 ≤ P.share a :=
  Int.tdiv_nonneg (Int.mul_nonneg (h.weight a) h.whole) h.total_nonneg

theorem share_zero {a : α} (ha : P.weight a = 0) : P.share a = 0 := by
  rw [share, ha, Int.zero_mul, Int.zero_tdiv]

theorem total_pos (h : P.Sound) {a : α} (ha : P.weight a ≠ 0) : 0 < P.total := by
  have hle := h.total.entry_le h.weight a
  have hpos := h.weight a
  omega

/-- The shares are within the pot. -/
theorem sum_share_le (h : P.Sound) : ∑ᶠ a, P.share a ≤ P.whole := by
  rcases h.total_nonneg.eq_or_lt with hzero | hpos
  · have hnone : ∀ a, P.share a = 0 := fun a => by
      rw [share, ← hzero, Int.tdiv_zero]
    rw [finsum_eq_zero_of_forall_eq_zero hnone]
    exact h.whole
  · refine h.total.prorata h.weight hpos h.whole (fun a => share_zero) fun a => ?_
    exact tdiv_mul_le (Int.mul_nonneg (h.weight a) h.whole) hpos

theorem share_finite (h : P.Sound) : (support P.share).Finite :=
  h.total.finite.subset fun _ ha hweight => ha (share_zero hweight)

/-- If nobody has taken more than its share, the pot still holds what is left of a share. -/
theorem taken_add_le (h : P.Sound) {taken : α → Int} {distributed : Int} (htaken : Totals taken distributed)
    (hle : ∀ a, taken a ≤ P.share a) (a : α) : distributed + (P.share a - taken a) ≤ P.whole := by
  classical
  have hafter := htaken.update a (P.share a)
  have hsum : ∑ᶠ x, update taken a (P.share a) x ≤ ∑ᶠ x, P.share x := by
    refine finsum_le_finsum' hafter.finite h.share_finite fun x => ?_
    rw [update_apply]
    split
    case isTrue hx => rw [hx]
    case isFalse => exact hle x
  have hwhole := h.sum_share_le
  have htotal := hafter.sum
  omega

/-- A share is at most the pot. -/
theorem share_le (h : P.Sound) (a : α) : P.share a ≤ P.whole := by
  have hle := h.taken_add_le .zero (fun x => h.share_nonneg x) a
  omega

end Sound

end Pot

end Host
