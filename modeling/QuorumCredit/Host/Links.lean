import QuorumCredit.Host.Graph
import Mathlib.Logic.Function.Basic
/-!
# Chains of links

A table in which each entry may link to another, as a delegation does. The chain
from an entry is followed link by link. Where every chain ends within `k` links
there is no cycle, and following `k` links reaches the end. A new link keeps it so
exactly when it closes no cycle and the chains through it stay that short.
-/

open Function

namespace Host

variable {α : Type} {next : α → Option α} {k m n : Nat} {a b d v : α}

/-- The entry `n` links on. -/
def hops (next : α → Option α) : Nat → α → Option α
  | 0, a => some a
  | n + 1, a => (next a).bind (hops next n)

/-- Where following at most `fuel` links leads. -/
def last (next : α → Option α) : Nat → α → α
  | 0, a => a
  | fuel + 1, a =>
    match next a with
    | some b => last next fuel b
    | none => a

/-- One entry links to the other. -/
def Linked (next : α → Option α) (a b : α) : Prop := next a = some b

/-- Every chain ends after at most `k` links. -/
def Short (next : α → Option α) (k : Nat) : Prop := ∀ a, hops next (k + 1) a = none

/-! ## Following links -/

theorem hops_add (m n : Nat) (a : α) : hops next (m + n) a = (hops next m a).bind (hops next n) := by
  induction m generalizing a with
  | zero => rw [Nat.zero_add]; rfl
  | succ m ih =>
    rw [Nat.succ_add, hops, hops]
    cases next a with
    | none => rfl
    | some b => exact ih b

theorem hops_trans (h : hops next m a = some b) (n : Nat) : hops next (m + n) a = hops next n b := by
  rw [hops_add, h, Option.bind_some]

/-- A chain that has ended is not followed further. -/
theorem hops_none (h : hops next m a = none) (hle : m ≤ n) : hops next n a = none := by
  obtain ⟨i, rfl⟩ := Nat.exists_eq_add_of_le hle
  rw [hops_add, h, Option.bind_none]

theorem hops_linked (h : Linked next a b) (n : Nat) : hops next (n + 1) a = hops next n b := by
  rw [hops, h, Option.bind_some]

theorem exists_hops_of_transGen (h : Relation.TransGen (Linked next) a b) : ∃ n, hops next (n + 1) a = some b := by
  induction h with
  | single h => exact ⟨0, hops_linked h 0⟩
  | tail _ h ih =>
    obtain ⟨n, hn⟩ := ih
    refine ⟨n + 1, ?_⟩
    rw [hops_trans hn, hops_linked h]
    rfl

theorem transGen_of_hops (h : hops next (n + 1) a = some b) : Relation.TransGen (Linked next) a b := by
  induction n generalizing a with
  | zero =>
    obtain ⟨c, hc, hb⟩ := Option.bind_eq_some_iff.1 h
    cases hb
    exact .single hc
  | succ n ih =>
    obtain ⟨c, hc, hb⟩ := Option.bind_eq_some_iff.1 h
    exact .head hc (ih hb)

/-- Going round a cycle again and again. -/
theorem hops_cycle (h : hops next n a = some a) (times : Nat) : hops next (times * n) a = some a := by
  induction times with
  | zero => rw [Nat.zero_mul]; rfl
  | succ times ih => rw [Nat.succ_mul, hops_trans ih, h]

/-! ## Short chains -/

theorem Short.le (h : Short next k) (ha : hops next n a = some b) : n ≤ k := by
  by_contra hlt
  rw [hops_none (h a) (Nat.lt_of_not_le hlt)] at ha
  cases ha

theorem Short.hops_ne (h : Short next k) (n : Nat) (a : α) : hops next (n + 1) a ≠ some a := by
  intro hcycle
  have hlong := h.le (hops_cycle hcycle (k + 1))
  have hmul : k + 1 ≤ (k + 1) * (n + 1) := Nat.le_mul_of_pos_right _ (Nat.succ_pos n)
  omega

theorem Short.acyclic (h : Short next k) : Acyclic (Linked next) := by
  intro a ha
  obtain ⟨n, hn⟩ := exists_hops_of_transGen ha
  exact h.hops_ne n a hn

/-- Following `k` links reaches the end of every chain exactly when every chain is that short. -/
theorem next_last_iff : next (last next k a) = none ↔ hops next (k + 1) a = none := by
  induction k generalizing a with
  | zero =>
    rw [hops, last]
    cases next a with
    | none => simp
    | some b => simp [hops]
  | succ k ih =>
    rw [hops, last]
    cases hb : next a with
    | none => simp [hb]
    | some b => exact ih

theorem last_of_none (h : next a = none) (fuel : Nat) : last next fuel a = a := by
  cases fuel with
  | zero => rfl
  | succ fuel => rw [last, h]

/-- The end of a chain is its own end. -/
theorem Short.last_last (h : Short next k) (a : α) : last next k (last next k a) = last next k a :=
  last_of_none (next_last_iff.2 (h a)) k

theorem short_empty : Short (fun _ : α => none) k := fun _ => rfl

/-- A link from `v` to `d` closes no cycle, and no chain through it is longer than `k`. -/
structure Fits (next : α → Option α) (k : Nat) (v d : α) : Prop where
  apart : ∀ j, hops next j d ≠ some v
  short : ∀ {i j a b}, hops next i a = some v → hops next j d = some b → i + 1 + j ≤ k

/-- A link to an entry that links nowhere makes the chains one link longer. -/
theorem Fits.of_end (h : Short next m) (hd : next d = none) (hne : d ≠ v) (hle : m + 1 ≤ k) : Fits next k v d := by
  have hend (j : Nat) : hops next (j + 1) d = none := by rw [hops, hd, Option.bind_none]
  refine ⟨fun j hj => ?_, fun {i j a b} hi hj => ?_⟩
  · cases j with
    | zero => exact hne (Option.some.inj hj)
    | succ j =>
      rw [hend] at hj
      cases hj
  · cases j with
    | zero =>
      have hlt := h.le hi
      omega
    | succ j =>
      rw [hend] at hj
      cases hj

/-! ## Changing a link -/

variable [DecidableEq α] {x : Option α}

/-- Up to where the chain comes to the entry, it does not see the change. -/
theorem hops_update (h : ∀ i < n, hops next i a ≠ some v) : hops (update next v x) n a = hops next n a := by
  induction n generalizing a with
  | zero => rfl
  | succ n ih =>
    have hav : a ≠ v := fun hav => h 0 (Nat.succ_pos n) (congrArg some hav)
    rw [hops, hops, update_of_ne hav]
    cases hb : next a with
    | none => rfl
    | some b =>
      refine ih fun i hi hv => h (i + 1) (Nat.succ_lt_succ hi) ?_
      rw [hops_linked hb, hv]

/-- A chain comes to the entry for a first time. -/
theorem exists_first (h : hops next n a = some v) :
    ∃ i ≤ n, hops next i a = some v ∧ ∀ j < i, hops next j a ≠ some v := by
  induction n using Nat.strongRecOn with
  | ind n ih =>
    by_cases hearlier : ∃ j < n, hops next j a = some v
    · obtain ⟨j, hj, hv⟩ := hearlier
      obtain ⟨i, hi, hi'⟩ := ih j hj hv
      exact ⟨i, by omega, hi'⟩
    · exact ⟨n, Nat.le_refl n, h, fun j hj hv => hearlier ⟨j, hj, hv⟩⟩

/-- A chain in the changed table is one that was there, or goes through the entry. -/
theorem hops_update_cases (h : hops (update next v x) n a = some b) :
    hops next n a = some b ∨ ∃ i ≤ n, hops next i a = some v ∧ hops (update next v x) (n - i) v = some b := by
  by_cases hpass : ∃ i < n, hops next i a = some v
  · obtain ⟨i, hi, hv⟩ := hpass
    obtain ⟨j, hj, hv, hfirst⟩ := exists_first hv
    have hle : j ≤ n := by omega
    refine .inr ⟨j, hle, hv, ?_⟩
    have hreach : hops (update next v x) j a = some v := by rw [hops_update hfirst, hv]
    rwa [← Nat.add_sub_cancel' hle, hops_trans hreach] at h
  · rw [hops_update fun i hi hv => hpass ⟨i, hi, hv⟩] at h
    exact .inl h

/-- Dropping a link lengthens no chain. -/
theorem Short.unlink (h : Short next k) (v : α) : Short (update next v none) k := by
  intro a
  cases hlong : hops (update next v none) (k + 1) a with
  | none => rfl
  | some b =>
    rcases hops_update_cases hlong with hold | ⟨i, hi, hv, hrest⟩
    · rw [h a] at hold
      cases hold
    · have hlt := h.le hv
      obtain ⟨j, hj⟩ : ∃ j, k + 1 - i = j + 1 := ⟨k - i, by omega⟩
      rw [hj, hops, update_self, Option.bind_none] at hrest
      cases hrest

/-- A link that fits keeps the chains short. -/
theorem Short.link (h : Short next k) (hfits : Fits next k v d) : Short (update next v (some d)) k := by
  intro a
  cases hlong : hops (update next v (some d)) (k + 1) a with
  | none => rfl
  | some b =>
    rcases hops_update_cases hlong with hold | ⟨i, hi, hv, hrest⟩
    · rw [h a] at hold
      cases hold
    · have hlt := h.le hv
      obtain ⟨j, hj⟩ : ∃ j, k + 1 - i = j + 1 := ⟨k - i, by omega⟩
      have hd : hops next j d = some b := by
        rw [hj, hops, update_self, Option.bind_some, hops_update fun i _ => hfits.apart i] at hrest
        exact hrest
      have hle := hfits.short hv hd
      omega

/-- The condition is exact. -/
theorem short_link_iff (h : Short next k) : Short (update next v (some d)) k ↔ Fits next k v d := by
  refine ⟨fun hnew => ?_, h.link⟩
  have hstep (n : Nat) : hops (update next v (some d)) (n + 1) v = hops (update next v (some d)) n d :=
    hops_linked (update_self ..) n
  have hapart : ∀ j, hops next j d ≠ some v := by
    intro j hj
    obtain ⟨i, -, hi, hfirst⟩ := exists_first hj
    refine hnew.hops_ne i v ?_
    rw [hstep, hops_update hfirst, hi]
  refine ⟨hapart, fun {i j a b} hi hj => ?_⟩
  have hfirst : ∀ i' < i, hops next i' a ≠ some v := by
    intro i' hlt hi'
    obtain ⟨n, rfl⟩ : ∃ n, i = i' + (n + 1) := ⟨i - i' - 1, by omega⟩
    rw [hops_trans hi'] at hi
    exact h.hops_ne n v hi
  have hreach : hops (update next v (some d)) i a = some v := by rw [hops_update hfirst, hi]
  refine hnew.le (a := a) (b := b) ?_
  rw [Nat.add_assoc, hops_trans hreach, Nat.add_comm, hstep, hops_update fun i _ => hapart i, hj]

end Host
