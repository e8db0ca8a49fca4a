import Mathlib.Logic.Function.Basic
/-!
# A log with a hot window

Entries are appended to a window of bounded length. When it fills up, the oldest are
cut over into a batch of their own, numbered in order; what was logged is read back
batch by batch and then off the window.
-/

namespace Host

open Function

/-- The window, the number of batches, and the batches by their numbers. -/
structure HotLog (α : Type) where
  hot : List α
  archiveCount : Nat
  batch : Nat → List α

namespace HotLog

variable {α : Type} {keep trigger : Nat}

def empty : HotLog α := ⟨[], 0, fun _ => []⟩

/-- A window that reaches `trigger` entries is cut back to `keep`. -/
def append (keep trigger : Nat) (l : HotLog α) (a : α) : HotLog α :=
  let hot := l.hot ++ [a]
  if trigger ≤ hot.length then
    { hot := hot.drop (hot.length - keep)
      archiveCount := l.archiveCount + 1
      batch := update l.batch l.archiveCount (hot.take (hot.length - keep)) }
  else { l with hot }

/-- The batches in order, and the window after them. -/
def entries (l : HotLog α) : List α := (List.range l.archiveCount).flatMap l.batch ++ l.hot

/-- The window is not full, and every batch holds what one cut leaves over. -/
structure Bounded (keep trigger : Nat) (l : HotLog α) : Prop where
  hot : l.hot.length < trigger
  batch : ∀ i < l.archiveCount, (l.batch i).length = trigger - keep

theorem flatMap_update_range (f : Nat → List α) (n : Nat) (b : List α) :
    (List.range (n + 1)).flatMap (update f n b) = (List.range n).flatMap f ++ b := by
  rw [List.range_succ, List.flatMap_append, List.flatMap_singleton, update_self]
  congr 1
  refine congrArg List.flatten (List.map_congr_left fun i hi => update_of_ne ?_ ..)
  exact Nat.ne_of_lt (List.mem_range.1 hi)

theorem entries_append (l : HotLog α) (a : α) : (l.append keep trigger a).entries = l.entries ++ [a] := by
  unfold append
  dsimp only
  split
  · simp only [entries, flatMap_update_range, List.append_assoc, List.take_append_drop]
  · simp only [entries, List.append_assoc]

theorem Bounded.append {l : HotLog α} (h : l.Bounded keep trigger) (hkeep : keep < trigger) (a : α) :
    (l.append keep trigger a).Bounded keep trigger := by
  have hlen : (l.hot ++ [a]).length = l.hot.length + 1 := List.length_append
  have hhot := h.hot
  unfold HotLog.append
  dsimp only
  split
  case isTrue hfull =>
    refine ⟨by simp only [List.length_drop]; omega, fun i hi => ?_⟩
    by_cases hlast : i = l.archiveCount
    · simp only [hlast, update_self, List.length_take]
      omega
    · have hi : i < l.archiveCount := by
        change i < l.archiveCount + 1 at hi
        omega
      simpa only [update_of_ne hlast] using h.batch i hi
  case isFalse hroom => exact ⟨Nat.not_le.1 hroom, h.batch⟩

theorem bounded_empty (h : keep < trigger) : (empty : HotLog α).Bounded keep trigger :=
  ⟨Nat.zero_lt_of_lt h, fun _ hi => absurd hi (Nat.not_lt_zero _)⟩

/-! ### One log of many -/

variable {ι : Type} [DecidableEq ι] (logs : ι → HotLog α) (i j : ι) (a : α)

/-- The log appended to has one entry more, the others are unchanged. -/
theorem entries_update : (update logs i ((logs i).append keep trigger a) j).entries =
    (logs j).entries ++ if i = j then [a] else [] := by
  by_cases hij : i = j
  · subst hij
    rw [update_self, entries_append, if_pos rfl]
  · rw [update_of_ne (Ne.symm hij), if_neg hij, List.append_nil]

theorem bounded_update (hkeep : keep < trigger) (h : (logs j).Bounded keep trigger) :
    (update logs i ((logs i).append keep trigger a) j).Bounded keep trigger := by
  by_cases hij : i = j
  · subst hij
    rw [update_self]
    exact h.append hkeep a
  · rwa [update_of_ne (Ne.symm hij)]

end HotLog

end Host
