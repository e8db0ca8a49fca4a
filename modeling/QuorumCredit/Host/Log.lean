import Mathlib.Data.List.Basic
import Mathlib.Order.Basic
/-!
# Ordered logs

Lists ordered by a number: they fall apart at every bound into what is up to it
and what is beyond, and a reader that knows the last element it saw goes on after it.
-/

namespace Host

variable {α : Type} {key : α → Nat} {l : List α}

/-- An ordered list is what is up to a bound and then what is beyond. -/
theorem filter_le_append_filter_lt (h : l.Pairwise fun a b => key a ≤ key b) (n : Nat) :
    l.filter (key · ≤ n) ++ l.filter (n < key ·) = l := by
  induction l with
  | nil => rfl
  | cons a l ih =>
    obtain ⟨hle, h⟩ := List.pairwise_cons.1 h
    by_cases ha : key a ≤ n
    · simp [ha, ih h]
    · have hnone : l.filter (key · ≤ n) = [] := by
        refine List.filter_eq_nil_iff.2 fun b hb => ?_
        have := hle b hb
        simp only [decide_eq_true_eq]
        omega
      have hall : l.filter (n < key ·) = l := by
        refine List.filter_eq_self.2 fun b hb => ?_
        have := hle b hb
        simp only [decide_eq_true_eq]
        omega
      rw [List.filter_cons_of_neg (by simpa using ha), List.filter_cons_of_pos (by simpa using ha), hnone, hall,
        List.nil_append]

/-- What is beyond a bound is what is left after the elements up to it. -/
theorem drop_length_filter (h : l.Pairwise fun a b => key a ≤ key b) (n : Nat) :
    l.drop (l.filter (key · ≤ n)).length = l.filter (n < key ·) := by
  conv_lhs => rw [← filter_le_append_filter_lt h n]
  rw [List.filter_append]
  simp

/-- The part after the last element with `p`, all of it if there is none. -/
def afterLast (p : α → Bool) : List α → List α
  | [] => []
  | a :: l => if l.any p then afterLast p l else if p a then l else a :: l

theorem afterLast_append {p : α → Bool} {a : α} (ha : p a = true) {later : List α} (hlater : ∀ b ∈ later, p b = false)
    (l : List α) : afterLast p (l ++ a :: later) = later := by
  have hnone : later.any p = false := by
    rw [List.any_eq_false]
    exact fun b hb => by simp [hlater b hb]
  induction l with
  | nil => simp [afterLast, hnone, ha]
  | cons b l ih =>
    have hany : (l ++ a :: later).any p = true := by simp [ha]
    rw [List.cons_append, afterLast, if_pos hany, ih]

theorem length_afterLast_le (p : α → Bool) (l : List α) : (afterLast p l).length ≤ l.length := by
  induction l with
  | nil => exact Nat.le_refl _
  | cons a l ih =>
    unfold afterLast
    split
    · exact Nat.le_trans ih (Nat.le_succ _)
    · split
      · exact Nat.le_succ _
      · exact Nat.le_refl _

end Host
