import QuorumCredit.Host.Sums
import QuorumCredit.Host.ProRata
/-!
# A table and its total

A program that keeps a table and, beside it, the sum of the entries writes both
with every change. `Totals` says that they agree.
-/

open Function

namespace Host

variable {α : Type} {f g : α → Int} {total : Int}

/-- The table is zero but for finitely many keys, and adds up to `total`. -/
structure Totals (f : α → Int) (total : Int) : Prop where
  finite : (support f).Finite
  sum : total = ∑ᶠ a, f a

namespace Totals

theorem zero : Totals (fun _ : α => 0) 0 where
  finite := by simp
  sum := finsum_zero.symm

theorem congr (h : Totals f total) {total' : Int} (hf : g = f) (htotal : total' = total) : Totals g total' := by
  rw [hf, htotal]
  exact h

/-- Writing an entry and correcting the total by what the entry gained. -/
theorem update [DecidableEq α] (h : Totals f total) (a : α) (v : Int) :
    Totals (update f a v) (total + v - f a) where
  finite := support_update_finite h.finite a v
  sum := by rw [finsum_update h.finite, h.sum]

/-- The same for a table whose entries are counted by `val`. -/
theorem update_entry [DecidableEq α] {β : Type} {val : β → Int} {table : α → β}
    (h : Totals (fun a => val (table a)) total) (a : α) (v : β) :
    Totals (fun x => val (Function.update table a v x)) (total + val v - val (table a)) := by
  have hentry : (fun x => val (Function.update table a v x)) = Function.update (fun x => val (table x)) a (val v) := by
    funext x
    exact apply_update (fun _ => val) table a v x
  rw [hentry]
  exact h.update a (val v)

theorem nonneg (h : Totals f total) (hpos : ∀ a, 0 ≤ f a) : 0 ≤ total := by
  rw [h.sum]
  exact finsum_nonneg hpos

/-- An entry is at most the total. -/
theorem entry_le (h : Totals f total) (hpos : ∀ a, 0 ≤ f a) (a : α) : f a ≤ total := by
  rw [h.sum]
  exact single_le_finsum a h.finite hpos

/-- Parts of a whole, each at most in proportion to its entry. -/
theorem prorata (h : Totals f total) (hpos : ∀ a, 0 ≤ f a) {part : α → Int} {whole : Int} (htotal : 0 < total)
    (hwhole : 0 ≤ whole) (hzero : ∀ a, f a = 0 → part a = 0) (hpart : ∀ a, part a * total ≤ f a * whole) :
    ∑ᶠ a, part a ≤ whole := by
  classical
  have hsub : support part ⊆ ↑h.finite.toFinset := by
    intro a ha
    rw [Set.Finite.coe_toFinset, mem_support]
    exact fun hf => ha (hzero a hf)
  have hsum : (h.finite.toFinset.toList.map f).sum ≤ total :=
    (sum_map_le_finsum h.finite hpos (Finset.nodup_toList _)).trans_eq h.sum.symm
  rw [finsum_eq_sum_of_support_subset part hsub, ← Finset.sum_map_toList]
  exact sum_le_of_prorata htotal hwhole (fun a _ => hpart a) hsum

end Totals

end Host
