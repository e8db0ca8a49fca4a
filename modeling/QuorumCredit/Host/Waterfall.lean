import Mathlib.Algebra.BigOperators.Group.List.Basic
import Mathlib.Algebra.Order.Ring.Int
import Mathlib.Data.List.Pairwise
import Mathlib.Tactic.Linarith
/-!
# Waterfalls

An amount is poured over a list of demands in order: each takes what it is owed,
or what is left. Where no demand is negative, the first ones are filled one after
the other and nothing is left over before all of them are.
-/

namespace Host.Waterfall

/-- What a demand takes of what is left. -/
def share (left owed : Int) : Int := if owed ≤ left then owed else if 0 < left then left else 0

variable {α : Type} (owed : α → Int)

/-- Each demand, in order, with what it takes. -/
def pour : Int → List α → List (α × Int)
  | _, [] => []
  | left, a :: as => (a, share left (owed a)) :: pour (left - share left (owed a)) as

/-- What all of them take. -/
def taken (left : Int) (as : List α) : Int := ((pour owed left as).map Prod.snd).sum

theorem share_le {left : Int} (h : 0 ≤ left) (o : Int) : share left o ≤ left := by
  unfold share
  split
  · assumption
  · split <;> omega

theorem share_nonneg (left : Int) {o : Int} (ho : 0 ≤ o) : 0 ≤ share left o := by
  unfold share
  split
  · exact ho
  · split <;> omega

theorem share_le_owed (left : Int) {o : Int} (ho : 0 ≤ o) : share left o ≤ o := by
  unfold share
  split
  · exact le_rfl
  · split <;> omega

/-- A demand that is not filled leaves nothing. -/
theorem share_eq_left {left o : Int} (h : 0 ≤ left) (ho : share left o ≠ o) : share left o = left := by
  unfold share at ho ⊢
  split at ho
  · exact absurd rfl ho
  · rw [if_neg (by assumption)]
    split <;> omega

/-- A negative demand is always filled. -/
theorem share_negative {left o : Int} (h : 0 ≤ left) (ho : o < 0) : share left o = o := if_pos (by omega)

@[simp] theorem map_fst_pour (left : Int) (as : List α) : (pour owed left as).map Prod.fst = as := by
  induction as generalizing left with
  | nil => rfl
  | cons a as ih => rw [pour, List.map_cons, ih]

variable {owed}

theorem taken_cons (left : Int) (a : α) (as : List α) :
    taken owed left (a :: as) = share left (owed a) + taken owed (left - share left (owed a)) as := List.sum_cons

theorem taken_le {left : Int} (h : 0 ≤ left) (as : List α) : taken owed left as ≤ left := by
  induction as generalizing left with
  | nil => exact h
  | cons a as ih =>
    have hshare := share_le h (owed a)
    have hrest := ih (show 0 ≤ left - share left (owed a) by omega)
    rw [taken_cons]
    omega

theorem filled_of_negative {left : Int} (h : 0 ≤ left) {as : List α} {a : α} (ha : a ∈ as) (hneg : owed a < 0) :
    (a, owed a) ∈ pour owed left as := by
  induction as generalizing left with
  | nil => cases ha
  | cons b as ih =>
    rw [pour]
    rcases List.mem_cons.1 ha with rfl | ha
    · rw [share_negative h hneg]
      exact List.mem_cons_self
    · have hshare := share_le h (owed b)
      exact List.mem_cons_of_mem _ (ih (by omega) ha)

section

variable {left : Int} {as : List α} (hn : ∀ a ∈ as, 0 ≤ owed a)

include hn

theorem taken_nonneg (left : Int) : 0 ≤ taken owed left as := by
  induction as generalizing left with
  | nil => exact le_rfl
  | cons a as ih =>
    rw [List.forall_mem_cons] at hn
    have hshare := share_nonneg left hn.1
    have hrest := ih hn.2 (left - share left (owed a))
    rw [taken_cons]
    omega

theorem pour_bounds (h : 0 ≤ left) : ∀ p ∈ pour owed left as, 0 ≤ p.2 ∧ p.2 ≤ owed p.1 := by
  induction as generalizing left with
  | nil => exact List.forall_mem_nil _
  | cons a as ih =>
    rw [List.forall_mem_cons] at hn
    have hshare := share_le h (owed a)
    rw [pour, List.forall_mem_cons]
    exact ⟨⟨share_nonneg left hn.1, share_le_owed left hn.1⟩, ih hn.2 (by omega)⟩

theorem pour_zero : ∀ p ∈ pour owed 0 as, p.2 = 0 := by
  induction as with
  | nil => exact List.forall_mem_nil _
  | cons a as ih =>
    rw [List.forall_mem_cons] at hn
    have hshare : share 0 (owed a) = 0 := by
      have hle := share_le le_rfl (owed a)
      have hge := share_nonneg 0 hn.1
      omega
    rw [pour, List.forall_mem_cons, hshare, sub_zero]
    exact ⟨rfl, ih hn.2⟩

/-- Whoever gets something comes after demands that are filled. -/
theorem pour_pairwise (h : 0 ≤ left) :
    (pour owed left as).Pairwise fun p q => 0 < q.2 → p.2 = owed p.1 := by
  induction as generalizing left with
  | nil => exact List.Pairwise.nil
  | cons a as ih =>
    rw [List.forall_mem_cons] at hn
    have hshare := share_le h (owed a)
    rw [pour, List.pairwise_cons]
    refine ⟨fun q hq hpos => ?_, ih hn.2 (by omega)⟩
    by_contra hne
    rw [share_eq_left h hne, sub_self] at hq
    have hnone := pour_zero hn.2 q hq
    omega

/-- Where the demands are ranked, whoever gets something finds every lower rank filled. -/
theorem pour_ranked (h : 0 ≤ left) {rank : α → Nat} (hrank : as.Pairwise fun a b => rank a ≤ rank b) :
    ∀ p ∈ pour owed left as, ∀ q ∈ pour owed left as, rank p.1 < rank q.1 → 0 < q.2 → p.2 = owed p.1 := by
  have horder : (pour owed left as).Pairwise fun p q => rank p.1 ≤ rank q.1 := by
    have hmap := hrank
    rw [← map_fst_pour owed left as, List.pairwise_map] at hmap
    exact hmap
  let R : α × Int → α × Int → Prop := fun p q =>
    (rank p.1 < rank q.1 → 0 < q.2 → p.2 = owed p.1) ∧ (rank q.1 < rank p.1 → 0 < p.2 → q.2 = owed q.1)
  have hsymm : Std.Symm R := ⟨fun _ _ hpq => ⟨hpq.2, hpq.1⟩⟩
  have hself : ∀ p ∈ pour owed left as, R p p := by
    intro p _
    exact ⟨fun hlt => absurd hlt (lt_irrefl _), fun hlt => absurd hlt (lt_irrefl _)⟩
  have hpairs : (pour owed left as).Pairwise R :=
    (horder.and (pour_pairwise hn h)).imp fun hpq => ⟨fun _ => hpq.2, fun hlt => absurd hpq.1 (Nat.not_le.2 hlt)⟩
  intro p hp q hq
  exact (hpairs.forall_of_forall hself hp hq).1

/-- Nothing is left over before every demand is filled. -/
theorem filled_of_taken_lt (h : 0 ≤ left) (hlt : taken owed left as < left) :
    ∀ p ∈ pour owed left as, p.2 = owed p.1 := by
  induction as generalizing left with
  | nil => exact List.forall_mem_nil _
  | cons a as ih =>
    rw [List.forall_mem_cons] at hn
    have hshare := share_le h (owed a)
    have hrest := taken_nonneg hn.2 (left - share left (owed a))
    rw [taken_cons] at hlt
    rw [pour, List.forall_mem_cons]
    refine ⟨?_, ih hn.2 (by omega) (by omega)⟩
    by_contra hne
    rw [share_eq_left h hne] at hlt hrest
    omega

end

end Host.Waterfall
