import Mathlib.Data.Set.Defs
import Mathlib.Data.List.Induction
import Mathlib.Data.List.Perm.Basic
/-!
# Hash trees

Binary trees over an arbitrary combining function: the value at the root, the
leaves, and the pairs combined on the way. Where the function tells the pairs
apart up to their order, and no combined value is a leaf, the root fixes the
leaves, and a path that climbs to it starts at one of them. A tree is built level
by level, the neighbours of each level paired up and an odd one out carried over.
-/

namespace Host

/-- A binary tree with values at its leaves. -/
inductive HashTree (H : Type) where
  | leaf (h : H)
  | node (l r : HashTree H)

namespace HashTree

section

variable {H : Type} (combine : H → H → H)

/-- The value at the root. -/
def root : HashTree H → H
  | leaf h => h
  | node l r => combine l.root r.root

def leaves : HashTree H → List H
  | leaf h => [h]
  | node l r => l.leaves ++ r.leaves

/-- The pairs combined to get the value at the root. -/
def pairs : HashTree H → List (H × H)
  | leaf _ => []
  | node l r => (l.root combine, r.root combine) :: (l.pairs ++ r.pairs)

/-- The pairs combined when `h` is folded with a path of siblings. -/
def foldPairs (h : H) : List H → List (H × H)
  | [] => []
  | s :: path => (h, s) :: foldPairs (combine h s) path

theorem foldPairs_append (h : H) (path rest : List H) :
    foldPairs combine h (path ++ rest) = foldPairs combine h path ++ foldPairs combine (path.foldl combine h) rest := by
  induction path generalizing h with
  | nil => rfl
  | cons s path ih => simp [foldPairs, ih]

/-- `combine` is injective on the pairs in `P` up to their order, and combining one of them yields no value in `L`. -/
structure Separates (P : Set (H × H)) (L : Set H) : Prop where
  injective : ∀ p ∈ P, ∀ q ∈ P, combine p.1 p.2 = combine q.1 q.2 → p = q ∨ p = q.swap
  fresh : ∀ p ∈ P, combine p.1 p.2 ∉ L

end

section

variable {H : Type} {combine : H → H → H} {P : Set (H × H)} {L : Set H}

/-- Trees with the same root have the same leaves. -/
theorem Separates.leaves_perm (hs : Separates combine P L) {t u : HashTree H} (ht : ∀ p ∈ t.pairs combine, p ∈ P)
    (hu : ∀ p ∈ u.pairs combine, p ∈ P) (htl : ∀ h ∈ t.leaves, h ∈ L) (hul : ∀ h ∈ u.leaves, h ∈ L)
    (h : t.root combine = u.root combine) : t.leaves.Perm u.leaves := by
  induction t generalizing u with
  | leaf x =>
    cases u with
    | leaf y =>
      obtain rfl : x = y := h
      exact .refl _
    | node l r =>
      -- a leaf on one side, a combined value on the other
      have hmem : combine (l.root combine) (r.root combine) ∈ L := by
        rw [show combine (l.root combine) (r.root combine) = x from h.symm]
        exact htl x List.mem_cons_self
      exact absurd hmem (hs.fresh _ (hu _ List.mem_cons_self))
  | node l r ihl ihr =>
    cases u with
    | leaf y =>
      have hmem : combine (l.root combine) (r.root combine) ∈ L := by
        rw [show combine (l.root combine) (r.root combine) = y from h]
        exact hul y List.mem_cons_self
      exact absurd hmem (hs.fresh _ (ht _ List.mem_cons_self))
    | node l' r' =>
      simp only [pairs, List.forall_mem_cons, List.forall_mem_append] at ht hu
      simp only [leaves, List.forall_mem_append] at htl hul
      rcases hs.injective _ ht.1 _ hu.1 h with hsame | hswap
      · obtain ⟨hl, hr⟩ := Prod.mk.inj hsame
        exact (ihl ht.2.1 hu.2.1 htl.1 hul.1 hl).append (ihr ht.2.2 hu.2.2 htl.2 hul.2 hr)
      · obtain ⟨hl, hr⟩ := Prod.mk.inj hswap
        have hperm := (ihl ht.2.1 hu.2.2 htl.1 hul.2 hl).append (ihr ht.2.2 hu.2.1 htl.2 hul.1 hr)
        exact hperm.trans List.perm_append_comm

/-- A path to the root of a tree starts at one of its leaves, if it starts at a value in `L`. -/
theorem Separates.mem_leaves (hs : Separates combine P L) {t : HashTree H} (ht : ∀ p ∈ t.pairs combine, p ∈ P)
    (htl : ∀ h ∈ t.leaves, h ∈ L) {h : H} (hh : h ∈ L) {path : List H} (hp : ∀ p ∈ foldPairs combine h path, p ∈ P)
    (hroot : path.foldl combine h = t.root combine) : h ∈ t.leaves := by
  -- the last step of the path goes to the root, so the rest leads to one of its children
  induction path using List.reverseRecOn generalizing t with
  | nil =>
    cases t with
    | leaf x => exact List.mem_singleton.2 hroot
    | node l r =>
      have hmem : combine (l.root combine) (r.root combine) ∈ L := by
        rw [show combine (l.root combine) (r.root combine) = h from hroot.symm]
        exact hh
      exact absurd hmem (hs.fresh _ (ht _ List.mem_cons_self))
  | append_singleton path s ih =>
    rw [foldPairs_append, List.forall_mem_append] at hp
    rw [List.foldl_append] at hroot
    have hlast : (path.foldl combine h, s) ∈ P := hp.2 _ List.mem_cons_self
    cases t with
    | leaf x =>
      have hmem : combine (path.foldl combine h) s ∈ L := by
        rw [show combine (path.foldl combine h) s = x from hroot]
        exact htl x List.mem_cons_self
      exact absurd hmem (hs.fresh _ hlast)
    | node l r =>
      simp only [pairs, List.forall_mem_cons, List.forall_mem_append] at ht
      simp only [leaves, List.forall_mem_append] at htl
      rcases hs.injective _ hlast _ ht.1 hroot with hsame | hswap
      · exact List.mem_append_left _ (ih ht.2.1 htl.1 hp.1 (Prod.mk.inj hsame).1)
      · exact List.mem_append_right _ (ih ht.2.2 htl.2 hp.1 (Prod.mk.inj hswap).1)

end

/-! ## Levels -/

section

variable {α β : Type} (f : α → α → α)

/-- One level up: neighbours combined, an odd one out carried over. -/
def pairUp : List α → List α
  | [] => []
  | [a] => [a]
  | a :: b :: rest => f a b :: pairUp rest

theorem length_pairUp (level : List α) : (pairUp f level).length = (level.length + 1) / 2 := by
  induction level using pairUp.induct with
  | case1 => simp [pairUp]
  | case2 a => simp [pairUp]
  | case3 a b rest ih =>
    simp only [pairUp, List.length_cons, ih]
    omega

/-- Level upon level, until one value is left. -/
def collapse (level : List α) : Option α :=
  if 1 < level.length then collapse (pairUp f level) else level.head?
termination_by level.length
decreasing_by
  rw [length_pairUp]
  omega

/-- The pairs of one level. -/
def levelPairs : List α → List (α × α)
  | [] => []
  | [_] => []
  | a :: b :: rest => (a, b) :: levelPairs rest

/-- The pairs combined on the way up. -/
def collapsePairs (level : List α) : List (α × α) :=
  if 1 < level.length then levelPairs level ++ collapsePairs (pairUp f level) else []
termination_by level.length
decreasing_by
  rw [length_pairUp]
  omega

end

section

variable {H : Type} (combine : H → H → H)

theorem map_root_pairUp (ts : List (HashTree H)) :
    (pairUp node ts).map (root combine) = pairUp combine (ts.map (root combine)) := by
  induction ts using pairUp.induct with
  | case1 => simp [pairUp]
  | case2 t => simp [pairUp]
  | case3 t u ts ih => simp [pairUp, ih, root]

theorem leaves_pairUp (ts : List (HashTree H)) : (pairUp node ts).flatMap leaves = ts.flatMap leaves := by
  induction ts using pairUp.induct with
  | case1 => simp [pairUp]
  | case2 t => simp [pairUp]
  | case3 t u ts ih => simp [pairUp, ih, leaves]

/-- The trees of the next level combine the pairs of this one, and what was combined before. -/
theorem pairs_pairUp {p : H × H} (ts : List (HashTree H)) (h : p ∈ (pairUp node ts).flatMap (pairs combine)) :
    p ∈ levelPairs (ts.map (root combine)) ∨ p ∈ ts.flatMap (pairs combine) := by
  induction ts using pairUp.induct with
  | case1 => exact .inr h
  | case2 t => exact .inr h
  | case3 t u ts ih =>
    simp only [pairUp, pairs, levelPairs, List.map_cons, List.flatMap_cons, List.mem_append, List.mem_cons] at h ⊢
    rcases h with (h | h | h) | h
    · exact .inl (.inl h)
    · exact .inr (.inl h)
    · exact .inr (.inr (.inl h))
    · rcases ih h with h | h
      · exact .inl (.inr h)
      · exact .inr (.inr (.inr h))

/-- Collapsing a level of values builds a tree over the trees they are roots of. -/
theorem collapse_roots (ts : List (HashTree H)) (hne : ts ≠ []) :
    ∃ t : HashTree H, collapse combine (ts.map (root combine)) = some (t.root combine) ∧
      t.leaves = ts.flatMap leaves ∧
      ∀ p ∈ t.pairs combine, p ∈ collapsePairs combine (ts.map (root combine)) ∨ p ∈ ts.flatMap (pairs combine) := by
  induction hn : ts.length using Nat.strongRecOn generalizing ts with
  | ind n ih =>
    subst hn
    rw [collapse, collapsePairs, List.length_map]
    by_cases hmany : 1 < ts.length
    · have hlength := length_pairUp node ts
      have hne' : pairUp node ts ≠ [] := by
        intro h
        rw [h, List.length_nil] at hlength
        omega
      obtain ⟨t, hroot, hleaves, hpairs⟩ := ih _ (by omega) (pairUp node ts) hne' rfl
      rw [map_root_pairUp] at hroot hpairs
      rw [if_pos hmany, if_pos hmany]
      refine ⟨t, hroot, hleaves.trans (leaves_pairUp ts), fun p hp => ?_⟩
      rcases hpairs p hp with h | h
      · exact .inl (List.mem_append_right _ h)
      · exact (pairs_pairUp combine ts h).imp_left (List.mem_append_left _)
    · rw [if_neg hmany, if_neg hmany]
      obtain ⟨t, rfl⟩ := List.length_eq_one_iff.1 (show ts.length = 1 by
        have := List.length_pos_iff.2 hne
        omega)
      exact ⟨t, rfl, (List.append_nil _).symm, fun p hp => .inr (by simpa using hp)⟩

/-- A level of values collapses to the root of a tree with these leaves. -/
theorem collapse_leaves (level : List H) (hne : level ≠ []) :
    ∃ t : HashTree H, collapse combine level = some (t.root combine) ∧ t.leaves = level ∧
      ∀ p ∈ t.pairs combine, p ∈ collapsePairs combine level := by
  have hroots : (level.map leaf).map (root combine) = level := by
    rw [List.map_map]
    exact List.map_id _
  have hleaves : (level.map leaf).flatMap leaves = level := by
    simp [List.flatMap_map, leaves]
  obtain ⟨t, hroot, htl, hpairs⟩ := collapse_roots combine (level.map leaf) (by simpa using hne)
  rw [hroots] at hroot hpairs
  refine ⟨t, hroot, htl.trans hleaves, fun p hp => (hpairs p hp).resolve_right fun h => ?_⟩
  obtain ⟨u, hu, hp⟩ := List.mem_flatMap.1 h
  obtain ⟨x, -, rfl⟩ := List.mem_map.1 hu
  cases hp

end

end HashTree

end Host
