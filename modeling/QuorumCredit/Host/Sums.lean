import Mathlib.Algebra.BigOperators.Finprod
import Mathlib.Algebra.Order.Group.Int
import Mathlib.Algebra.Order.BigOperators.Group.Finset
/-!
# Sums over a table

The sum of a table that is zero but for finitely many keys, and what writing one
entry does to it.
-/

open Function

namespace Host

variable {α : Type} [DecidableEq α] {f : α → Int}

theorem support_update_finite (hf : (support f).Finite) (a : α) (v : Int) : (support (update f a v)).Finite := by
  refine (hf.insert a).subset fun x hx => ?_
  rw [mem_support] at hx
  by_cases hxa : x = a
  · exact .inl hxa
  · rw [update_of_ne hxa] at hx
    exact .inr hx

/-- Writing an entry changes the sum by the new value less the old one. -/
theorem finsum_update (hf : (support f).Finite) (a : α) (v : Int) :
    ∑ᶠ x, update f a v x = (∑ᶠ x, f x) + v - f a := by
  have hsingle : ∑ᶠ x, (if x = a then v - f a else 0) = v - f a := by
    rw [finsum_eq_single _ a fun x hx => if_neg hx, if_pos rfl]
  have hfinite : (support fun x => if x = a then v - f a else 0).Finite := by
    refine (Set.finite_singleton a).subset fun x hx => ?_
    by_contra hxa
    exact hx (if_neg hxa)
  have hsplit : update f a v = fun x => f x + if x = a then v - f a else 0 := by
    funext x
    rw [update_apply]
    split
    case isTrue hx =>
      rw [hx]
      omega
    case isFalse => rw [add_zero]
  rw [hsplit, finsum_add_distrib hf hfinite, hsingle]
  omega

/-- The same for a table whose entries are counted by `g`. -/
theorem finsum_update_entry {β : Type} {g : β → Int} {table : α → β} (hf : (support fun a => g (table a)).Finite)
    (a : α)
    (v : β) : ∑ᶠ x, g (update table a v x) = (∑ᶠ x, g (table x)) + g v - g (table a) := by
  have hentry : (fun x => g (update table a v x)) = update (fun x => g (table x)) a (g v) := by
    funext x
    exact apply_update (fun _ => g) table a v x
  rw [hentry, finsum_update hf]

/-- Entries of different keys add up to at most the sum of a table without negative entries. -/
theorem sum_map_le_finsum (hf : (support f).Finite) (hpos : ∀ a, 0 ≤ f a) {keys : List α} (hkeys : keys.Nodup) :
    (keys.map f).sum ≤ ∑ᶠ a, f a := by
  have hsub : support f ⊆ ↑(hf.toFinset ∪ keys.toFinset) := by
    intro a ha
    simp [mem_support.1 ha]
  rw [finsum_eq_sum_of_support_subset f hsub, ← List.sum_toFinset f hkeys]
  exact Finset.sum_le_sum_of_subset_of_nonneg Finset.subset_union_right fun a _ _ => hpos a

end Host
