import Mathlib.Algebra.BigOperators.Group.Finset.Basic
import Mathlib.Algebra.Order.BigOperators.Group.Finset
import Mathlib.Algebra.Order.Ring.Int
/-!
# Counters kept beside a table

A program that keeps a table often keeps counters beside it: how many rows have
some property, what they add up to. `Tally`, `Number` and `Total` say that such a
counter is exact, and their rules say which update of the counter goes with
which change of the table.
-/

open Finset

namespace Host

variable {α : Type}

/-- The things with property `p` are `n` in number and weigh `v` together. -/
def Tally (p : α → Prop) (w : α → Int) (n : Nat) (v : Int) : Prop :=
  ∃ S : Finset α, (∀ a, a ∈ S ↔ p a) ∧ n = S.card ∧ v = ∑ a ∈ S, w a

/-- The things with property `p` are `n` in number. -/
def Number (p : α → Prop) (n : Nat) : Prop :=
  ∃ S : Finset α, (∀ a, a ∈ S ↔ p a) ∧ n = S.card

/-- The values of `f` add up to `n`. -/
def Total (f : α → Nat) (n : Nat) : Prop :=
  ∃ B : Finset α, (∀ a, a ∉ B → f a = 0) ∧ n = ∑ a ∈ B, f a

section Tally

variable {p q : α → Prop} {w w' : α → Int} {n : Nat} {v : Int} {a : α}

theorem Tally.none (h : ∀ a, ¬ p a) : Tally p w 0 0 :=
  ⟨∅, fun a => by simp [h a], by simp, by simp⟩

theorem Tally.congr (h : Tally p w n v) (hq : ∀ x, q x ↔ p x) (hw : ∀ x, p x → w' x = w x) : Tally q w' n v := by
  obtain ⟨S, hmem, hn, hv⟩ := h
  refine ⟨S, fun x => (hmem x).trans (hq x).symm, hn, ?_⟩
  rw [hv]
  exact sum_congr rfl fun x hx => (hw x ((hmem x).1 hx)).symm

/-- One more: count it and add its weight. -/
theorem Tally.enter [DecidableEq α] (h : Tally p w n v) (hp : ¬ p a) (hq : ∀ x, q x ↔ x = a ∨ p x)
    (hw : ∀ x, p x → w' x = w x) : Tally q w' (n + 1) (v + w' a) := by
  obtain ⟨S, hmem, hn, hv⟩ := h
  have ha : a ∉ S := fun h => hp ((hmem a).1 h)
  refine ⟨insert a S, fun x => ?_, ?_, ?_⟩
  · rw [mem_insert, hmem, hq]
  · rw [card_insert_of_notMem ha, hn]
  · rw [sum_insert ha, hv, add_comm]
    congr 1
    exact sum_congr rfl fun x hx => (hw x ((hmem x).1 hx)).symm

/-- One less: uncount it and take its weight off. -/
theorem Tally.leave [DecidableEq α] (h : Tally p w n v) (hp : p a) (hq : ∀ x, q x ↔ x ≠ a ∧ p x)
    (hw : ∀ x, x ≠ a → w' x = w x) : Tally q w' (n - 1) (v - w a) := by
  obtain ⟨S, hmem, hn, hv⟩ := h
  have ha : a ∈ S := (hmem a).2 hp
  refine ⟨S.erase a, fun x => ?_, ?_, ?_⟩
  · rw [mem_erase, hmem, hq]
  · rw [card_erase_of_mem ha, hn]
  · rw [hv, ← add_sum_erase S w ha, add_sub_cancel_left]
    exact sum_congr rfl fun x hx => (hw x (mem_erase.1 hx).1).symm

/-- Among weights that are not negative, none exceeds the sum. -/
theorem Tally.weight_le (h : Tally p w n v) (hp : p a) (hpos : ∀ x, p x → 0 ≤ w x) : w a ≤ v := by
  obtain ⟨S, hmem, -, hv⟩ := h
  rw [hv]
  exact single_le_sum (fun x hx => hpos x ((hmem x).1 hx)) ((hmem a).2 hp)

theorem Tally.pos (h : Tally p w n v) (hp : p a) : 0 < n := by
  obtain ⟨S, hmem, hn, -⟩ := h
  rw [hn]
  exact card_pos.2 ⟨a, (hmem a).2 hp⟩

end Tally

section Number

variable {p q : α → Prop} {n : Nat} {a : α}

theorem Number.none (h : ∀ a, ¬ p a) : Number p 0 :=
  ⟨∅, fun a => by simp [h a], by simp⟩

theorem Number.congr (h : Number p n) (hq : ∀ x, q x ↔ p x) : Number q n := by
  obtain ⟨S, hmem, hn⟩ := h
  exact ⟨S, fun x => (hmem x).trans (hq x).symm, hn⟩

theorem Number.enter [DecidableEq α] (h : Number p n) (hp : ¬ p a) (hq : ∀ x, q x ↔ x = a ∨ p x) :
    Number q (n + 1) := by
  obtain ⟨S, hmem, hn⟩ := h
  have ha : a ∉ S := fun h => hp ((hmem a).1 h)
  exact ⟨insert a S, fun x => by rw [mem_insert, hmem, hq], by rw [card_insert_of_notMem ha, hn]⟩

end Number

section Total

variable {f : α → Nat} {n : Nat}

theorem Total.zero : Total (fun _ : α => 0) 0 := ⟨∅, fun _ _ => rfl, rfl⟩

/-- One value goes up by one, and so does the total. -/
theorem Total.bump [DecidableEq α] (h : Total f n) (a : α) : Total (Function.update f a (f a + 1)) (n + 1) := by
  obtain ⟨B, hzero, hn⟩ := h
  have ha : a ∈ insert a B := mem_insert_self a B
  have hsum : n = ∑ x ∈ insert a B, f x := by
    by_cases hB : a ∈ B
    · rw [insert_eq_of_mem hB, hn]
    · rw [sum_insert hB, hzero a hB, zero_add, hn]
  have hrest : ∑ x ∈ (insert a B).erase a, Function.update f a (f a + 1) x = ∑ x ∈ (insert a B).erase a, f x :=
    sum_congr rfl fun x hx => Function.update_of_ne (mem_erase.1 hx).1 ..
  refine ⟨insert a B, fun x hx => ?_, ?_⟩
  · rw [mem_insert, not_or] at hx
    rw [Function.update_of_ne hx.1, hzero x hx.2]
  · rw [hsum, ← add_sum_erase _ _ ha, ← add_sum_erase _ _ ha, hrest, Function.update_self]
    omega

theorem Total.le (h : Total f n) (a : α) : f a ≤ n := by
  obtain ⟨B, hzero, hn⟩ := h
  by_cases ha : a ∈ B
  · rw [hn]
    exact single_le_sum (fun _ _ => Nat.zero_le _) ha
  · rw [hzero a ha]
    exact Nat.zero_le n

end Total

end Host
