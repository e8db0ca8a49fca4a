import QuorumCredit.Types
import QuorumCredit.Host.HashTree
import QuorumCredit.Host.Sha256
import QuorumCredit.Host.Xdr
import Mathlib.Data.List.Sort
import Mathlib.Data.Set.Function
/-!
# The Merkle tree over a vouch set

`merkle_tree.rs`: the root committed to for a set of vouches, inclusion proofs
and their check. Leaf, node and empty hashes carry different prefixes, a pair is
hashed in sorted order, and an odd node is carried over unchanged. SHA-256 and the
host's serialization are parameters.
-/

open Host Host.HashTree

namespace QuorumCredit

/-- `BytesN<32>`. -/
abbrev Digest := Vector UInt8 32

/-- The order of the bytes. -/
def Digest.le (a b : Digest) : Prop := a.toList ≤ b.toList

instance : DecidableRel Digest.le := fun a b => inferInstanceAs (Decidable (a.toList ≤ b.toList))

def leafPrefix : UInt8 := 0x00
def nodePrefix : UInt8 := 0x01
def emptyPrefix : UInt8 := 0x02

/-- What a leaf commits to: `(voucher, stake, token, vouch_timestamp)`. -/
abbrev VouchPayload := Address × Int × Address × Nat

section

variable (sha256 : List UInt8 → Digest)

def hashLeaf (toXdr : VouchPayload → List UInt8) (payload : VouchPayload) : Digest :=
  sha256 (leafPrefix :: toXdr payload)

/-- The string hashed for a pair: the node prefix, then the smaller and the larger child. -/
def pairBytes (a b : Digest) : List UInt8 :=
  if a.le b then nodePrefix :: (a.toList ++ b.toList) else nodePrefix :: (b.toList ++ a.toList)

def hashPair (a b : Digest) : Digest := sha256 (pairBytes a b)

def emptyRoot : Digest := sha256 [emptyPrefix]

def canonicalOrder (leaves : List Digest) : List Digest := leaves.insertionSort Digest.le

def buildMerkleRoot (leaves : List Digest) : Digest :=
  if leaves = [] then emptyRoot sha256
  else
    -- the last level has one node: the tree is not empty
    (collapse (hashPair sha256) (canonicalOrder leaves)).getD (emptyRoot sha256)

/-- One level of `generate_proof` from index `i` on: the next level, the index of
the target in it, and the proof with the target's sibling. -/
def proofLevel (i idx : Nat) (next proof : List Digest) : List Digest → List Digest × Nat × List Digest
  | [] => (next, idx, proof)
  | [a] => (next ++ [a], if i = idx then next.length else idx, proof)
  | a :: b :: rest =>
    if i = idx ∨ i + 1 = idx then
      proofLevel (i + 2) next.length (next ++ [hashPair sha256 a b]) (proof ++ [if i = idx then b else a]) rest
    else proofLevel (i + 2) idx (next ++ [hashPair sha256 a b]) proof rest

theorem proofLevel_next (i idx : Nat) (next proof level : List Digest) :
    (proofLevel sha256 i idx next proof level).1 = next ++ pairUp (hashPair sha256) level := by
  induction i, idx, next, proof, level using proofLevel.induct sha256 with
  | case1 => simp [proofLevel, pairUp]
  | case2 => simp [proofLevel, pairUp]
  | case3 i idx next proof a b rest hmine ih => simp [proofLevel, pairUp, hmine, ih]
  | case4 i idx next proof a b rest hother ih => simp [proofLevel, pairUp, hother, ih]

/-- The levels of `generate_proof`. -/
def proofLoop (level : List Digest) (idx : Nat) (proof : List Digest) : List Digest :=
  if 1 < level.length then
    let up := proofLevel sha256 0 idx [] proof level
    proofLoop up.1 up.2.1 up.2.2
  else proof
termination_by level.length
decreasing_by
  rw [proofLevel_next, List.nil_append, length_pairUp]
  omega

def generateProof (leaves : List Digest) (leaf : Digest) : Option (List Digest) :=
  if leaves = [] then none
  else ((canonicalOrder leaves).idxOf? leaf).map fun idx => proofLoop sha256 (canonicalOrder leaves) idx []

def verifyInclusion (root leaf : Digest) (proof : List Digest) : Bool :=
  proof.foldl (hashPair sha256) leaf == root

end

/-! ## Pairs and orders -/

namespace Digest

theorem le_antisymm {a b : Digest} (hab : a.le b) (hba : b.le a) : a = b :=
  Vector.toList_inj.1 (List.le_antisymm hab hba)

instance : Std.Total Digest.le := ⟨fun a b => List.le_total a.toList b.toList⟩

instance : IsTrans Digest Digest.le := ⟨fun _ _ _ hab hbc => List.le_trans hab hbc⟩

end Digest

theorem pairBytes_comm (a b : Digest) : pairBytes a b = pairBytes b a := by
  unfold pairBytes
  rcases total_of Digest.le a b with hab | hba
  · by_cases hba : b.le a
    · rw [Digest.le_antisymm hab hba]
    · rw [if_pos hab, if_neg hba]
  · by_cases hab : a.le b
    · rw [Digest.le_antisymm hab hba]
    · rw [if_neg hab, if_pos hba]

theorem hashPair_comm (sha256 : List UInt8 → Digest) (a b : Digest) : hashPair sha256 a b = hashPair sha256 b a := by
  rw [hashPair, pairBytes_comm, hashPair]

/-- The string of a pair fixes the pair up to its order. -/
theorem pairBytes_inj {a b c d : Digest} (h : pairBytes a b = pairBytes c d) : (a, b) = (c, d) ∨ (a, b) = (d, c) := by
  have hparts {x y z w : Digest} (h : nodePrefix :: (x.toList ++ y.toList) = nodePrefix :: (z.toList ++ w.toList)) :
      x = z ∧ y = w := by
    obtain ⟨hx, hy⟩ := List.append_inj (List.cons.inj h).2 (by simp)
    exact ⟨Vector.toList_inj.1 hx, Vector.toList_inj.1 hy⟩
  unfold pairBytes at h
  split at h
  · split at h
    · obtain ⟨rfl, rfl⟩ := hparts h
      exact .inl rfl
    · obtain ⟨rfl, rfl⟩ := hparts h
      exact .inr rfl
  · split at h
    · obtain ⟨rfl, rfl⟩ := hparts h
      exact .inr rfl
    · obtain ⟨rfl, rfl⟩ := hparts h
      exact .inl rfl

theorem canonicalOrder_perm (leaves : List Digest) : (canonicalOrder leaves).Perm leaves := List.perm_insertionSort ..

/-- The order of the leaves does not matter. -/
theorem canonicalOrder_congr {xs ys : List Digest} (h : xs.Perm ys) : canonicalOrder xs = canonicalOrder ys := by
  have hperm := (canonicalOrder_perm xs).trans (h.trans (canonicalOrder_perm ys).symm)
  apply hperm.eq_of_pairwise
  · intro a b _ _ hab hba
    exact Digest.le_antisymm hab hba
  · exact List.pairwise_insertionSort Digest.le xs
  · exact List.pairwise_insertionSort Digest.le ys

/-! ## Generated proofs verify -/

section

variable (sha256 : List UInt8 → Digest)

/-- Once the target has been passed, a level leaves its index and the proof alone. -/
theorem proofLevel_passed (i idx : Nat) (next proof level : List Digest) (h : idx < i) :
    (proofLevel sha256 i idx next proof level).2 = (idx, proof) := by
  induction i, idx, next, proof, level using proofLevel.induct sha256 with
  | case1 => simp [proofLevel]
  | case2 i idx next proof a => simp [proofLevel, (show i ≠ idx by omega)]
  | case3 i idx next proof a b rest hmine ih => omega
  | case4 i idx next proof a b rest hother ih => simpa [proofLevel, hother] using ih (by omega)

/-- A level adds at most the sibling of the target, and folding the target with
it gives the node at the target's new index. -/
theorem proofLevel_target (i idx : Nat) (next proof level : List Digest) (target : Digest) (hnext : next.length ≤ i)
    (hi : i ≤ idx) (htarget : level[idx - i]? = some target) :
    ∃ siblings, (proofLevel sha256 i idx next proof level).2.2 = proof ++ siblings ∧
      (proofLevel sha256 i idx next proof level).1[(proofLevel sha256 i idx next proof level).2.1]? =
        some (siblings.foldl (hashPair sha256) target) := by
  induction i, idx, next, proof, level using proofLevel.induct sha256 with
  | case1 => simp at htarget
  | case2 i idx next proof a =>
    obtain rfl : i = idx := by
      obtain ⟨hlt, -⟩ := List.getElem?_eq_some_iff.1 htarget
      simp only [List.length_singleton] at hlt
      omega
    obtain rfl : a = target := by simpa using htarget
    exact ⟨[], by simp [proofLevel]⟩
  | case3 i idx next proof a b rest hmine ih =>
    rw [proofLevel, if_pos hmine, proofLevel_next]
    rw [proofLevel_passed sha256 _ _ _ _ _ (by omega)]
    refine ⟨[if i = idx then b else a], rfl, ?_⟩
    -- the target is one of the pair, whichever comes first
    have hpair : hashPair sha256 target (if i = idx then b else a) = hashPair sha256 a b := by
      by_cases hfirst : i = idx
      · obtain rfl : a = target := by simpa [hfirst] using htarget
        rw [if_pos hfirst]
      · obtain rfl : idx = i + 1 := by omega
        obtain rfl : b = target := by simpa using htarget
        rw [if_neg hfirst, hashPair_comm]
    simp [hpair]
  | case4 i idx next proof a b rest hother ih =>
    rw [proofLevel, if_neg hother]
    apply ih
    · simp only [List.length_append, List.length_singleton]
      omega
    · omega
    · obtain ⟨k, rfl⟩ : ∃ k, idx = i + 2 + k := ⟨idx - (i + 2), by omega⟩
      rw [show i + 2 + k - i = k + 2 by omega] at htarget
      rw [show i + 2 + k - (i + 2) = k by omega]
      simpa using htarget

/-- The proof of the target folds to the root of the level. -/
theorem proofLoop_target (level : List Digest) (idx : Nat) (proof : List Digest) (target : Digest)
    (htarget : level[idx]? = some target) :
    ∃ siblings, proofLoop sha256 level idx proof = proof ++ siblings ∧
      collapse (hashPair sha256) level = some (siblings.foldl (hashPair sha256) target) := by
  induction level, idx, proof using proofLoop.induct sha256 generalizing target with
  | case1 level idx proof hmany up ih =>
    obtain ⟨first, hproof, htarget'⟩ := proofLevel_target sha256 0 idx [] proof level target (Nat.zero_le _)
      (Nat.zero_le _) htarget
    obtain ⟨rest, hrest, hroot⟩ := ih _ htarget'
    rw [proofLevel_next, List.nil_append] at hroot
    refine ⟨first ++ rest, ?_, ?_⟩
    · rw [proofLoop, if_pos hmany, ← List.append_assoc, ← hproof]
      exact hrest
    · rw [collapse, if_pos hmany, hroot, List.foldl_append]
  | case2 level idx proof hone =>
    rw [proofLoop, if_neg hone, collapse, if_neg hone]
    obtain ⟨hlt, -⟩ := List.getElem?_eq_some_iff.1 htarget
    obtain rfl : idx = 0 := by omega
    exact ⟨[], by simp, by simpa [List.head?_eq_getElem?] using htarget⟩

/-- `generate_proof` returns a proof exactly for the leaves of the list, and the
proof verifies against the root. -/
theorem generated_proof_verifies (leaves : List Digest) (leaf : Digest) :
    (generateProof sha256 leaves leaf).map (verifyInclusion sha256 (buildMerkleRoot sha256 leaves) leaf) =
      if leaf ∈ leaves then some true else none := by
  by_cases hempty : leaves = []
  · simp [generateProof, hempty]
  · rw [generateProof, if_neg hempty, buildMerkleRoot, if_neg hempty]
    by_cases hmem : leaf ∈ leaves
    · rw [if_pos hmem]
      have hsorted : leaf ∈ canonicalOrder leaves := (canonicalOrder_perm leaves).mem_iff.2 hmem
      cases hidx : (canonicalOrder leaves).idxOf? leaf with
      | none => exact absurd hsorted (List.idxOf?_eq_none_iff.1 hidx)
      | some idx =>
        obtain ⟨hlt, htarget, -⟩ := List.idxOf?_eq_some_iff.1 hidx
        obtain ⟨siblings, hproof, hroot⟩ := proofLoop_target sha256 (canonicalOrder leaves) idx [] leaf
          (List.getElem?_eq_some_iff.2 ⟨hlt, by simpa using htarget⟩)
        simp [hproof, hroot, verifyInclusion]
    · rw [if_neg hmem]
      have hnot : leaf ∉ canonicalOrder leaves := fun h => hmem ((canonicalOrder_perm leaves).mem_iff.1 h)
      rw [List.idxOf?_eq_none_iff.2 hnot, Option.map_none, Option.map_none]

end

/-! ## The strings that are hashed -/

section

variable (sha256 : List UInt8 → Digest)

/-- The strings hashed to build the root. -/
def rootStrings (leaves : List Digest) : List (List UInt8) :=
  if leaves = [] then [[emptyPrefix]]
  else (collapsePairs (hashPair sha256) (canonicalOrder leaves)).map fun p => pairBytes p.1 p.2

/-- The strings hashed to check a proof. -/
def proofStrings (leaf : Digest) (proof : List Digest) : List (List UInt8) :=
  (foldPairs (hashPair sha256) leaf proof).map fun p => pairBytes p.1 p.2

end

section

variable {sha256 : List UInt8 → Digest} {S : Set (List UInt8)} {L : Set Digest}

/-- A hash function without collisions on `S` separates the pairs whose strings are in `S`. -/
theorem separates_of_injOn (hinj : Set.InjOn sha256 S) (hfresh : ∀ x ∈ S, x.head? = some nodePrefix → sha256 x ∉ L) :
    Separates (hashPair sha256) {p | pairBytes p.1 p.2 ∈ S} L := by
  refine ⟨fun p hp q hq h => pairBytes_inj (hinj hp hq h), fun p hp => hfresh _ hp ?_⟩
  unfold pairBytes
  split
  · rfl
  · rfl

/-- The root of a list that is not empty is that of a tree over it. -/
theorem buildMerkleRoot_tree (sha256 : List UInt8 → Digest) {leaves : List Digest} (hne : leaves ≠ []) :
    ∃ t : HashTree Digest, buildMerkleRoot sha256 leaves = t.root (hashPair sha256) ∧ t.leaves.Perm leaves ∧
      ∀ p ∈ t.pairs (hashPair sha256), pairBytes p.1 p.2 ∈ rootStrings sha256 leaves := by
  have hne' : canonicalOrder leaves ≠ [] := by
    intro h
    have hperm := canonicalOrder_perm leaves
    rw [h] at hperm
    exact hne hperm.symm.eq_nil
  obtain ⟨t, hroot, hleaves, hpairs⟩ := collapse_leaves (hashPair sha256) (canonicalOrder leaves) hne'
  refine ⟨t, ?_, hleaves ▸ canonicalOrder_perm leaves, fun p hp => ?_⟩
  · rw [buildMerkleRoot, if_neg hne, hroot, Option.getD_some]
  · rw [rootStrings, if_neg hne]
    exact List.mem_map_of_mem (hpairs p hp)

end

/-! ## Soundness -/

section

variable (sha256 : List UInt8 → Digest) (toXdr : VouchPayload → List UInt8)

/-- Every string hashed for the leaves, the root and the check of a proof. -/
def hashedStrings (vouches : List VouchPayload) (vouch : VouchPayload) (proof : List Digest) : List (List UInt8) :=
  (vouch :: vouches).map (fun payload => leafPrefix :: toXdr payload) ++
    rootStrings sha256 (vouches.map (hashLeaf sha256 toXdr)) ++
    proofStrings sha256 (hashLeaf sha256 toXdr vouch) proof

/-- Where SHA-256 has no collision on the strings hashed, only the leaves of the
list verify against its root, whatever the proof. -/
theorem inclusion_sound {vouches : List VouchPayload} {vouch : VouchPayload} {proof : List Digest}
    (hinj : Set.InjOn sha256 {x | x ∈ hashedStrings sha256 toXdr vouches vouch proof})
    (h : verifyInclusion sha256 (buildMerkleRoot sha256 (vouches.map (hashLeaf sha256 toXdr)))
      (hashLeaf sha256 toXdr vouch) proof = true) :
    hashLeaf sha256 toXdr vouch ∈ vouches.map (hashLeaf sha256 toXdr) := by
  have hroot : proof.foldl (hashPair sha256) (hashLeaf sha256 toXdr vouch) =
      buildMerkleRoot sha256 (vouches.map (hashLeaf sha256 toXdr)) := eq_of_beq h
  have hleafString : ∀ payload ∈ vouch :: vouches,
      leafPrefix :: toXdr payload ∈ hashedStrings sha256 toXdr vouches vouch proof := by
    intro payload hp
    exact List.mem_append_left _ (List.mem_append_left _ (List.mem_map_of_mem hp))
  have hproof : ∀ p ∈ foldPairs (hashPair sha256) (hashLeaf sha256 toXdr vouch) proof,
      pairBytes p.1 p.2 ∈ hashedStrings sha256 toXdr vouches vouch proof := by
    intro p hp
    exact List.mem_append_right _ (List.mem_map_of_mem hp)
  have hrootString : ∀ x ∈ rootStrings sha256 (vouches.map (hashLeaf sha256 toXdr)),
      x ∈ hashedStrings sha256 toXdr vouches vouch proof := by
    intro x hx
    exact List.mem_append_left _ (List.mem_append_right _ hx)
  -- strings that begin differently have different hashes
  have hfresh : ∀ x ∈ hashedStrings sha256 toXdr vouches vouch proof, x.head? ≠ some leafPrefix →
      ∀ payload ∈ vouch :: vouches, sha256 x ≠ hashLeaf sha256 toXdr payload := by
    intro x hx hhead payload hp heq
    have hsame : x = leafPrefix :: toXdr payload := hinj hx (hleafString payload hp) heq
    rw [hsame] at hhead
    exact hhead rfl
  have hsep : Separates (hashPair sha256)
      {p | pairBytes p.1 p.2 ∈ {x | x ∈ hashedStrings sha256 toXdr vouches vouch proof}}
      {d | d ∈ (vouch :: vouches).map (hashLeaf sha256 toXdr)} := by
    refine separates_of_injOn hinj fun x hx hhead hmem => ?_
    obtain ⟨payload, hp, heq⟩ := List.mem_map.1 hmem
    refine hfresh x hx ?_ payload hp heq.symm
    rw [hhead]
    decide
  by_cases hempty : vouches = []
  · -- the root of the empty list is no leaf and no pair
    subst hempty
    change _ = sha256 [emptyPrefix] at hroot
    have hemptyString : [emptyPrefix] ∈ hashedStrings sha256 toXdr [] vouch proof :=
      hrootString _ (List.mem_singleton.2 rfl)
    induction proof using List.reverseRecOn with
    | nil => exact absurd hroot.symm (hfresh _ hemptyString (by decide) vouch List.mem_cons_self)
    | append_singleton proof s _ =>
      rw [List.foldl_append] at hroot
      have hlast := hproof (proof.foldl (hashPair sha256) (hashLeaf sha256 toXdr vouch), s) (by
        rw [foldPairs_append]
        exact List.mem_append_right _ List.mem_cons_self)
      have hsame : pairBytes _ s = [emptyPrefix] := hinj hlast hemptyString hroot
      have hlength := congrArg List.length hsame
      unfold pairBytes at hlength
      split at hlength
      · simp at hlength
      · simp at hlength
  · obtain ⟨t, ht, hleaves, hpairs⟩ := buildMerkleRoot_tree sha256
      (show vouches.map (hashLeaf sha256 toXdr) ≠ [] by simpa using hempty)
    refine hleaves.mem_iff.1 (hsep.mem_leaves (fun p hp => hrootString _ (hpairs p hp)) (fun d hd => ?_) ?_ hproof
      (hroot.trans ht))
    · exact List.mem_cons_of_mem _ (hleaves.mem_iff.1 hd)
    · exact List.mem_cons_self

end

/-! ### Two vouches -/

/-- The host's serialization of a payload. -/
def payloadXdr : VouchPayload → List UInt8
  | (voucher, stake, token, timestamp) =>
    Xdr.vec [Xdr.address voucher, Xdr.i128 stake, Xdr.address token, Xdr.u64 timestamp]

theorem injOn_of_nodup_map {α β : Type} {f : α → β} {xs : List α} (ys : List α) (hsub : ∀ x ∈ xs, x ∈ ys)
    (h : (ys.map f).Nodup) : Set.InjOn f {x | x ∈ xs} := by
  intro x hx y hy
  exact List.inj_on_of_nodup_map h (hsub x hx) (hsub y hy)

/-- The stakes of accounts 2 and 3. -/
def twoVouches : List VouchPayload := [(2, 1000000, 100, 1000000), (3, 500000, 100, 1000000)]

def firstLeaf : Digest :=
  #v[218, 247, 206, 99, 250, 34, 110, 165, 25, 154, 152, 28, 195, 189, 161, 255, 38, 61, 59, 43, 205, 121, 39, 39, 16,
    27, 141, 24, 122, 225, 189, 244]

def secondLeaf : Digest :=
  #v[79, 63, 151, 201, 17, 49, 190, 228, 168, 64, 114, 110, 103, 76, 53, 61, 7, 26, 138, 199, 15, 103, 15, 74, 72, 186,
    206, 109, 41, 166, 150, 76]

theorem digest_first : Sha256.digest (leafPrefix :: payloadXdr (2, 1000000, 100, 1000000)) = firstLeaf := by
  decide +kernel

theorem digest_second : Sha256.digest (leafPrefix :: payloadXdr (3, 500000, 100, 1000000)) = secondLeaf := by
  decide +kernel

/-- The proof for the first of them is the leaf of the second. -/
theorem inclusion_sound_two :
    let leaf := hashLeaf Sha256.digest payloadXdr
    leaf (2, 1000000, 100, 1000000) ∈ twoVouches.map leaf := by
  have hinj : Set.InjOn Sha256.digest {x | x ∈ hashedStrings Sha256.digest payloadXdr twoVouches
      (2, 1000000, 100, 1000000) [hashLeaf Sha256.digest payloadXdr (3, 500000, 100, 1000000)]} := by
    simp only [hashedStrings, twoVouches, List.map_cons, List.map_nil, hashLeaf, digest_first, digest_second]
    refine injOn_of_nodup_map [leafPrefix :: payloadXdr (2, 1000000, 100, 1000000),
      leafPrefix :: payloadXdr (3, 500000, 100, 1000000), pairBytes firstLeaf secondLeaf]
      (by decide +kernel) ?_
    rw [List.map_cons, digest_first, List.map_cons, digest_second]
    decide +kernel
  refine inclusion_sound Sha256.digest payloadXdr hinj ?_
  simp only [twoVouches, List.map_cons, List.map_nil, hashLeaf, digest_first, digest_second]
  decide +kernel

/-! ## The root binds the leaves -/

/-- The node hash is injective on the strings hashed for the two roots, and none of these hashes is a leaf. -/
structure NodeHashSeparates (sha256 : List UInt8 → Digest) (xs ys : List Digest) : Prop where
  injective : Set.InjOn sha256 {x | x ∈ rootStrings sha256 xs ++ rootStrings sha256 ys}
  disjoint : ∀ x ∈ rootStrings sha256 xs ++ rootStrings sha256 ys, sha256 x ∉ xs ++ ys

namespace NodeHashSeparates

variable {sha256 : List UInt8 → Digest} {xs ys : List Digest}

theorem symm (h : NodeHashSeparates sha256 xs ys) : NodeHashSeparates sha256 ys xs := by
  obtain ⟨hinj, hdisjoint⟩ := h
  refine ⟨hinj.mono fun x hx => ?_, fun x hx hmem => hdisjoint x ?_ ?_⟩
  · exact List.mem_append.2 (List.mem_append.1 hx).symm
  · exact List.mem_append.2 (List.mem_append.1 hx).symm
  · exact List.mem_append.2 (List.mem_append.1 hmem).symm

/-- The empty list shares its root with no other. -/
theorem root_ne_empty (h : NodeHashSeparates sha256 [] ys) (hne : ys ≠ []) :
    buildMerkleRoot sha256 [] ≠ buildMerkleRoot sha256 ys := by
  obtain ⟨t, ht, hleaves, hpairs⟩ := buildMerkleRoot_tree sha256 hne
  have hemptyString : [emptyPrefix] ∈ rootStrings sha256 [] ++ rootStrings sha256 ys :=
    List.mem_append_left _ (List.mem_singleton.2 rfl)
  intro hroot
  rw [ht] at hroot
  change sha256 [emptyPrefix] = _ at hroot
  cases t with
  | leaf d => exact h.disjoint _ hemptyString (hroot ▸ hleaves.mem_iff.1 List.mem_cons_self)
  | node l r =>
    have hpair := List.mem_append_right (rootStrings sha256 []) (hpairs _ List.mem_cons_self)
    have hsame : [emptyPrefix] = pairBytes _ _ := h.injective hemptyString hpair hroot
    have hlength := congrArg List.length hsame
    unfold pairBytes at hlength
    split at hlength
    · simp at hlength
    · simp at hlength

theorem perm_of_root (h : NodeHashSeparates sha256 xs ys)
    (hroot : buildMerkleRoot sha256 xs = buildMerkleRoot sha256 ys) :
    xs.Perm ys := by
  by_cases hx : xs = []
  · subst hx
    by_cases hy : ys = []
    · rw [hy]
    · exact absurd hroot (h.root_ne_empty hy)
  · by_cases hy : ys = []
    · subst hy
      exact absurd hroot.symm (h.symm.root_ne_empty hx)
    · obtain ⟨t, ht, htl, htp⟩ := buildMerkleRoot_tree sha256 hx
      obtain ⟨u, hu, hul, hup⟩ := buildMerkleRoot_tree sha256 hy
      have hsep := separates_of_injOn (L := {d | d ∈ xs ++ ys}) h.injective fun x hx _ => h.disjoint x hx
      refine htl.symm.trans ((hsep.leaves_perm ?_ ?_ ?_ ?_ (ht.symm.trans (hroot.trans hu))).trans hul)
      · exact fun p hp => List.mem_append_left _ (htp p hp)
      · exact fun p hp => List.mem_append_right _ (hup p hp)
      · exact fun d hd => List.mem_append_left _ (htl.mem_iff.1 hd)
      · exact fun d hd => List.mem_append_right _ (hul.mem_iff.1 hd)

end NodeHashSeparates

/-- Permuting the leaves keeps the root; where the node hash separates them, lists
with the same root are permutations of each other, so one more leaf changes it. -/
theorem root_binds_leaves (sha256 : List UInt8 → Digest) :
    (∀ xs ys, xs.Perm ys → buildMerkleRoot sha256 xs = buildMerkleRoot sha256 ys) ∧
      (∀ xs ys, NodeHashSeparates sha256 xs ys → buildMerkleRoot sha256 xs = buildMerkleRoot sha256 ys → xs.Perm ys) ∧
      ∀ xs leaf, NodeHashSeparates sha256 (leaf :: xs) xs →
        buildMerkleRoot sha256 (leaf :: xs) ≠ buildMerkleRoot sha256 xs := by
  refine ⟨fun xs ys hperm => ?_, fun xs ys h => h.perm_of_root, fun xs leaf h hroot => ?_⟩
  · by_cases hx : xs = []
    · subst hx
      rw [hperm.nil_eq]
    · have hy : ys ≠ [] := fun hy => hx (hy ▸ hperm).eq_nil
      rw [buildMerkleRoot, if_neg hx, buildMerkleRoot, if_neg hy, canonicalOrder_congr hperm]
  · have hlength := (h.perm_of_root hroot).length_eq
    simp at hlength

/-- Two leaves in either order, and with the first repeated. -/
theorem root_binds_leaves_two :
    let a : Digest := .replicate 32 0xa1
    let b : Digest := .replicate 32 0xb2
    buildMerkleRoot Sha256.digest [a, b] = buildMerkleRoot Sha256.digest [b, a] ∧ [a, b].Perm [b, a] ∧
      buildMerkleRoot Sha256.digest [a, a, b] ≠ buildMerkleRoot Sha256.digest [a, b] := by
  intro a b
  have hswap : NodeHashSeparates Sha256.digest [a, b] [b, a] :=
    ⟨injOn_of_nodup_map [pairBytes a b] (by decide +kernel) (List.nodup_singleton _), by decide +kernel⟩
  have hrepeat : NodeHashSeparates Sha256.digest [a, a, b] [a, b] :=
    ⟨injOn_of_nodup_map _ (fun _ => id) (by decide +kernel), by decide +kernel⟩
  have hroot := (root_binds_leaves Sha256.digest).1 [a, b] [b, a] (List.Perm.swap b a [])
  refine ⟨hroot, (root_binds_leaves Sha256.digest).2.1 [a, b] [b, a] hswap hroot, ?_⟩
  exact (root_binds_leaves Sha256.digest).2.2 [a, b] a hrepeat

end QuorumCredit
