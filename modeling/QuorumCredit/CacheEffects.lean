import QuorumCredit.SmartQueryCache
import Mathlib.Tactic.Tauto
/-!
# What the query cache's methods do

The index of tags is exact and stays so. Methods that take entries out leave the
others as they were, but for their accesses; adding one takes out at most one other.
-/

namespace QuorumCredit.Server

open Host

variable {δ : Type}

/-- Each tag has the keys of the entries that carry it. -/
def Indexed (c : SmartQueryCache δ) : Prop :=
  ∀ tag key, key ∈ keysOf c.tagToKeys tag ↔ ∃ entry, c.entries.get key = some entry ∧ tag ∈ entry.tags

/-- The tags of the entry with the key. -/
def SmartQueryCache.tagsAt (c : SmartQueryCache δ) (key : String) : List String :=
  ((c.entries.get key).map CacheEntry.tags).getD []

/-- An entry with the key is there to be replaced, or there is room, or the entry to be evicted has
a key that is not empty. -/
def RoomFor (config : SmartQueryCacheConfig) (c : SmartQueryCache δ) (key : String) : Prop :=
  key ∈ c.entries.keys ∨ c.entries.size < config.maxEntries ∨
    ∀ x, SmartQueryCache.leastRecent c.entries.entries none = some x → x.1 ≠ ""

/-! ## The index -/

section

variable {index : OrderedMap String (List String)} {key key' tag tag' : String}

theorem mem_keysOf_addKey :
    key' ∈ keysOf (addKey key index tag) tag' ↔ key' ∈ keysOf index tag' ∨ tag' = tag ∧ key' = key := by
  unfold addKey
  by_cases htag : tag' = tag
  · subst htag
    rw [keysOf, OrderedMap.get_set_self, Option.getD_some]
    split
    case isTrue hmem =>
      constructor
      · exact Or.inl
      · rintro (h | ⟨-, rfl⟩)
        · exact h
        · exact hmem
    case isFalse => simp
  · rw [keysOf, OrderedMap.get_set_of_ne _ _ htag]
    simp [keysOf, htag]

theorem mem_keysOf_removeKey :
    key' ∈ keysOf (removeKey key index tag) tag' ↔ key' ∈ keysOf index tag' ∧ ¬ (tag' = tag ∧ key' = key) := by
  unfold removeKey
  cases hget : index.get tag with
  | none =>
    constructor
    · intro h
      refine ⟨h, ?_⟩
      rintro ⟨rfl, -⟩
      simp [keysOf, hget] at h
    · exact And.left
  | some keys =>
    by_cases htag : tag' = tag
    · subst htag
      simp only [true_and]
      split
      case isTrue hempty =>
        rw [keysOf, OrderedMap.get_erase, if_pos rfl, keysOf, hget]
        have hall := List.filter_eq_nil_iff.1 hempty
        simpa using fun hmem => not_not.1 (by simpa using hall key' hmem)
      case isFalse => simp [keysOf, hget]
    · simp only [htag, false_and, not_false_eq_true, and_true]
      split
      · rw [keysOf, OrderedMap.get_erase, if_neg htag, keysOf]
      · rw [keysOf, OrderedMap.get_set_of_ne _ _ htag, keysOf]

theorem mem_keysOf_foldl_addKey (tags : List String) :
    key' ∈ keysOf (tags.foldl (addKey key) index) tag' ↔ key' ∈ keysOf index tag' ∨ tag' ∈ tags ∧ key' = key := by
  induction tags generalizing index with
  | nil => simp
  | cons tag tags ih =>
    rw [List.foldl_cons, ih, mem_keysOf_addKey, List.mem_cons]
    tauto

theorem mem_keysOf_foldl_removeKey (tags : List String) :
    key' ∈ keysOf (tags.foldl (removeKey key) index) tag' ↔
      key' ∈ keysOf index tag' ∧ ¬ (tag' ∈ tags ∧ key' = key) := by
  induction tags generalizing index with
  | nil => simp
  | cons tag tags ih =>
    rw [List.foldl_cons, ih, mem_keysOf_removeKey, List.mem_cons]
    tauto

end

/-! ## Deleting entries -/

/-- Some entries are gone, the others are what they were but for their accesses. -/
structure Reduced (c c' : SmartQueryCache δ) : Prop where
  kept : ∀ key entry', c'.entries.get key = some entry' →
    ∃ entry, c.entries.get key = some entry ∧ entry'.tags = entry.tags
  indexed : Indexed c → Indexed c'
  size : c'.entries.size ≤ c.entries.size
  inFlight : c'.inFlightQueries = c.inFlightQueries

namespace Reduced

variable {c c' c'' : SmartQueryCache δ} {key : String}

theorem refl (c : SmartQueryCache δ) : Reduced c c := ⟨fun _ entry h => ⟨entry, h, rfl⟩, id, Nat.le_refl _, rfl⟩

theorem trans (h : Reduced c c') (h' : Reduced c' c'') : Reduced c c'' where
  kept key entry'' hget := by
    obtain ⟨entry', hget', htags'⟩ := h'.kept key entry'' hget
    obtain ⟨entry, hget, htags⟩ := h.kept key entry' hget'
    exact ⟨entry, hget, htags'.trans htags⟩
  indexed hi := h'.indexed (h.indexed hi)
  size := Nat.le_trans h'.size h.size
  inFlight := h'.inFlight.trans h.inFlight

theorem get_eq_none (h : Reduced c c') (hnone : c.entries.get key = none) : c'.entries.get key = none := by
  cases hget : c'.entries.get key with
  | none => rfl
  | some entry' =>
    obtain ⟨entry, hentry, -⟩ := h.kept key entry' hget
    rw [hnone] at hentry
    cases hentry

end Reduced

namespace SmartQueryCache

variable (c : SmartQueryCache δ) (key : String)

theorem deleteEntry_reduced : Reduced c (c.deleteEntry key).1 := by
  unfold deleteEntry
  cases hget : c.entries.get key with
  | none => exact .refl c
  | some entry =>
    refine ⟨?_, ?_, ?_, rfl⟩
    · intro key' entry' h
      rw [OrderedMap.get_erase] at h
      split at h
      · cases h
      · exact ⟨entry', h, rfl⟩
    · intro hi tag key'
      rw [mem_keysOf_foldl_removeKey, hi tag key', OrderedMap.get_erase]
      by_cases hkey : key' = key
      · subst hkey
        simp [hget]
      · simp [hkey]
    · have hsize := c.entries.size_erase hget
      simp only
      omega

theorem deleteEntry_get : (c.deleteEntry key).1.entries.get key = none := by
  unfold deleteEntry
  cases hget : c.entries.get key with
  | none => exact hget
  | some entry => rw [OrderedMap.get_erase, if_pos rfl]

theorem deleteEntry_size {entry : CacheEntry δ} (h : c.entries.get key = some entry) :
    (c.deleteEntry key).1.entries.size + 1 = c.entries.size := by
  unfold deleteEntry
  rw [h]
  exact c.entries.size_erase h

theorem deleteEntries_reduced (keys : List String) :
    Reduced c (c.deleteEntries keys).1 ∧ ∀ key ∈ keys, (c.deleteEntries keys).1.entries.get key = none := by
  induction keys generalizing c with
  | nil => exact ⟨.refl c, List.forall_mem_nil _⟩
  | cons key keys ih =>
    obtain ⟨hreduced, hnone⟩ := ih (c.deleteEntry key).1
    refine ⟨(c.deleteEntry_reduced key).trans hreduced, ?_⟩
    rw [List.forall_mem_cons]
    exact ⟨hreduced.get_eq_none (c.deleteEntry_get key), hnone⟩

/-- Looking an entry up changes its accesses, or deletes it. -/
theorem getEntry_reduced (now : Int) : Reduced c (c.getEntry now key).2 := by
  unfold getEntry
  cases hget : c.entries.get key with
  | none => exact ⟨fun _ entry h => ⟨entry, h, rfl⟩, id, Nat.le_refl _, rfl⟩
  | some entry =>
    simp only
    split
    · have h := deleteEntry_reduced { c with misses := c.misses + 1 } key
      exact ⟨h.kept, h.indexed, h.size, h.inFlight⟩
    · refine ⟨?_, ?_, ?_, rfl⟩
      · intro key' entry' h
        rw [OrderedMap.get_set] at h
        split at h
        case isTrue hkey =>
          cases h
          exact ⟨entry, hkey ▸ hget, rfl⟩
        case isFalse => exact ⟨entry', h, rfl⟩
      · intro hi tag key'
        rw [hi tag key', OrderedMap.get_set]
        by_cases hkey : key' = key
        · subst hkey
          simp [hget]
        · simp [hkey]
      · exact Nat.le_of_eq (by rw [OrderedMap.size_set, if_pos (OrderedMap.mem_keys.2 ⟨entry, hget⟩)])

theorem evictLru_reduced : Reduced c c.evictLru := by
  unfold evictLru
  split
  · exact .refl c
  case h_2 key _ =>
    have h := c.deleteEntry_reduced key
    exact ⟨h.kept, h.indexed, h.size, h.inFlight⟩

/-! ## Adding an entry -/

theorem leastRecent_mem {l : List (String × CacheEntry δ)} {oldest : Option (String × CacheEntry δ)}
    {x : String × CacheEntry δ} (h : leastRecent l oldest = some x) : x ∈ l ∨ oldest = some x := by
  induction l generalizing oldest with
  | nil => exact .inr h
  | cons y l ih =>
    cases oldest with
    | none =>
      rcases ih h with hmem | heq
      · exact .inl (List.mem_cons_of_mem y hmem)
      · cases heq
        exact .inl List.mem_cons_self
    | some oldest =>
      rcases ih h with hmem | heq
      · exact .inl (List.mem_cons_of_mem y hmem)
      · split at heq
        · cases heq
          exact .inl List.mem_cons_self
        · exact .inr heq

theorem leastRecent_isSome (l : List (String × CacheEntry δ)) (oldest : String × CacheEntry δ) :
    (leastRecent l (some oldest)).isSome = true := by
  induction l generalizing oldest with
  | nil => rfl
  | cons x l ih => exact ih _

/-- What is evicted is an entry, unless the one to be evicted has the empty key. -/
theorem evictLru_size (hne : c.entries.size ≠ 0)
    (hkey : ∀ x, leastRecent c.entries.entries none = some x → x.1 ≠ "") :
    c.evictLru.entries.size + 1 = c.entries.size := by
  have hsome : (leastRecent c.entries.entries none).isSome = true := by
    cases hentries : c.entries.entries with
    | nil => exact absurd (congrArg List.length hentries) hne
    | cons x l => exact leastRecent_isSome l x
  obtain ⟨x, hx⟩ := Option.isSome_iff_exists.1 hsome
  have hold : c.oldestKey = some x.1 := by
    rw [oldestKey, hx]
    exact if_neg (hkey x hx)
  have hmem : (x.1, x.2) ∈ c.entries.entries := by
    rcases leastRecent_mem hx with h | h
    · exact h
    · cases h
  unfold evictLru
  rw [hold]
  exact c.deleteEntry_size x.1 (OrderedMap.mem_entries.1 hmem)

theorem makeRoom_reduced (maxEntries : Nat) :
    Reduced c (c.makeRoom maxEntries key) ∧ (c.makeRoom maxEntries key).entries.get key = none := by
  unfold makeRoom
  split
  · exact ⟨c.deleteEntry_reduced key, c.deleteEntry_get key⟩
  case isFalse hnew =>
    have hnone : c.entries.get key = none := OrderedMap.get_eq_none.2 hnew
    split
    · exact ⟨c.evictLru_reduced, c.evictLru_reduced.get_eq_none hnone⟩
    · exact ⟨.refl c, hnone⟩

theorem makeRoom_size {config : SmartQueryCacheConfig} (hmax : 1 ≤ config.maxEntries)
    (hsize : c.entries.size ≤ config.maxEntries) (hroom : RoomFor config c key) :
    (c.makeRoom config.maxEntries key).entries.size + 1 ≤ config.maxEntries := by
  unfold makeRoom
  split
  case isTrue hmem =>
    obtain ⟨entry, hentry⟩ := OrderedMap.mem_keys.1 hmem
    have := c.deleteEntry_size key hentry
    omega
  case isFalse hnew =>
    split
    case isTrue hfull =>
      rcases hroom with h | h | h
      · exact absurd h hnew
      · omega
      · have := c.evictLru_size (by omega) h
        omega
    case isFalse => omega

variable (config : SmartQueryCacheConfig) (now : Int) (data : Option δ) (options : CacheSetOptions)

theorem setEntry_get (key' : String) : (c.setEntry config now key data options).entries.get key' =
    if key' = key then some
      { key, data, createdAt := now, expiresAt := now + options.ttlMs.getD config.defaultTtlMs
        tags := options.tags.eraseDups, cost := options.cost.getD 1, lastAccessed := now, hits := 0 }
    else (c.makeRoom config.maxEntries key).entries.get key' :=
  OrderedMap.get_set _ _ _ _

theorem setEntry_indexed (hi : Indexed c) : Indexed (c.setEntry config now key data options) := by
  obtain ⟨hreduced, hnone⟩ := c.makeRoom_reduced key config.maxEntries
  intro tag key'
  have hindex : key' ∈ keysOf (c.setEntry config now key data options).tagToKeys tag ↔
      key' ∈ keysOf (c.makeRoom config.maxEntries key).tagToKeys tag ∨ tag ∈ options.tags.eraseDups ∧ key' = key :=
    mem_keysOf_foldl_addKey _
  rw [hindex, hreduced.indexed hi tag key', setEntry_get]
  by_cases hkey : key' = key
  · subst hkey
    simp [hnone]
  · simp [hkey]

theorem setEntry_size (hmax : 1 ≤ config.maxEntries) (hsize : c.entries.size ≤ config.maxEntries)
    (hroom : RoomFor config c key) : (c.setEntry config now key data options).entries.size ≤ config.maxEntries := by
  have hroom' := c.makeRoom_size key hmax hsize hroom
  have hset : (c.setEntry config now key data options).entries.size =
      if key ∈ (c.makeRoom config.maxEntries key).entries.keys then (c.makeRoom config.maxEntries key).entries.size
      else (c.makeRoom config.maxEntries key).entries.size + 1 := OrderedMap.size_set _ _ _
  rw [hset]
  split
  · omega
  · omega

theorem setEntry_inFlight : (c.setEntry config now key data options).inFlightQueries = c.inFlightQueries :=
  (c.makeRoom_reduced key config.maxEntries).1.inFlight

/-! ## Invalidating -/

theorem mem_tagsAt {tag : String} :
    tag ∈ c.tagsAt key ↔ ∃ entry, c.entries.get key = some entry ∧ tag ∈ entry.tags := by
  unfold tagsAt
  cases c.entries.get key with
  | none => simp
  | some entry => simp

theorem invalidateKey_reduced :
    Reduced c (c.invalidateKey key).1 ∧ (c.invalidateKey key).1.entries.get key = none := by
  unfold invalidateKey
  split
  case isTrue =>
    have h := c.deleteEntry_reduced key
    exact ⟨⟨h.kept, h.indexed, h.size, h.inFlight⟩, c.deleteEntry_get key⟩
  case isFalse hnew => exact ⟨.refl c, OrderedMap.get_eq_none.2 hnew⟩

theorem invalidatePattern_reduced (pattern : CachePattern) : Reduced c (c.invalidatePattern pattern).1 ∧
    ∀ key, pattern.test key = true → (c.invalidatePattern pattern).1.entries.get key = none := by
  obtain ⟨h, hnone⟩ := c.deleteEntries_reduced (c.entries.keys.filter pattern.test)
  refine ⟨⟨h.kept, h.indexed, h.size, h.inFlight⟩, fun key htest => ?_⟩
  by_cases hmem : key ∈ c.entries.keys
  · exact hnone key (List.mem_filter.2 ⟨hmem, htest⟩)
  · exact h.get_eq_none (OrderedMap.get_eq_none.2 hmem)

theorem invalidateTag_reduced (hi : Indexed c) (tag : String) : Reduced c (c.invalidateTag tag).1 ∧
    ∀ key, tag ∈ c.tagsAt key → (c.invalidateTag tag).1.entries.get key = none := by
  have hnotag : keysOf c.tagToKeys tag = [] → ∀ key, tag ∉ c.tagsAt key := by
    intro hempty key htag
    have hmem := (hi tag key).2 ((c.mem_tagsAt key).1 htag)
    rw [hempty] at hmem
    cases hmem
  unfold invalidateTag
  split
  case h_1 hget => exact ⟨.refl c, fun key htag => absurd htag (hnotag (by simp [keysOf, hget]) key)⟩
  case h_2 hget => exact ⟨.refl c, fun key htag => absurd htag (hnotag (by simp [keysOf, hget]) key)⟩
  case h_3 key keys hget =>
    obtain ⟨h, hnone⟩ := c.deleteEntries_reduced (key :: keys)
    have hkeys : keysOf c.tagToKeys tag = key :: keys := by simp [keysOf, hget]
    have hgone : ∀ key', tag ∈ c.tagsAt key' → (c.deleteEntries (key :: keys)).1.entries.get key' = none := by
      intro key' htag
      refine hnone key' ?_
      rw [← hkeys]
      exact (hi tag key').2 ((c.mem_tagsAt key').1 htag)
    refine ⟨⟨h.kept, fun _ => ?_, h.size, h.inFlight⟩, hgone⟩
    intro tag' key'
    have hindexed := h.indexed hi tag' key'
    by_cases htag : tag' = tag
    -- none of the entries left carries the tag
    · subst htag
      rw [keysOf, OrderedMap.get_erase, if_pos rfl]
      refine iff_of_false (by simp) ?_
      rintro ⟨entry', hentry', htag⟩
      obtain ⟨entry, hentry, htags⟩ := h.kept key' entry' hentry'
      have hcarried : tag' ∈ c.tagsAt key' := (c.mem_tagsAt key').2 ⟨entry, hentry, htags ▸ htag⟩
      rw [hgone key' hcarried] at hentry'
      cases hentry'
    · rw [keysOf, OrderedMap.get_erase, if_neg htag]
      exact hindexed

/-! ## Looking up -/

theorem getEntry_some {now : Int} {data : δ} (h : (c.getEntry now key).1 = some data) :
    ∃ entry, c.entries.get key = some entry := by
  unfold getEntry at h
  cases hget : c.entries.get key with
  | none => simp [hget] at h
  | some entry => exact ⟨entry, rfl⟩

/-- What `wrap` does after the lookup: nothing, or a query is started for a key without one. -/
theorem wrap_cases (now : Int) (options : CacheWrapOptions) (next : Nat) (throws : Bool) :
    ((c.wrap now key options next throws).2 = ((c.getEntry now key).2, none) ∨
      (c.inFlightQueries.get key = none ∧ ∃ start, (c.wrap now key options next throws).2 =
        ({ (c.getEntry now key).2 with inFlightQueries := c.inFlightQueries.set key next }, some start))) ∧
    ∀ data, (c.wrap now key options next throws).1 = .value (some data) → ∃ entry, c.entries.get key = some entry := by
  have hsame := (c.getEntry_reduced key now).inFlight
  have hkept := (c.getEntry_reduced key now).kept key
  unfold wrap
  split
  case h_1 cached c' hget =>
    rw [hget]
    exact ⟨.inl rfl, fun _ _ => c.getEntry_some key (congrArg Prod.fst hget)⟩
  case h_2 c' hget =>
    rw [hget] at hsame hkept ⊢
    simp only at hsame hkept ⊢
    split
    case h_1 expired _ hentry =>
      have hstored : ∃ entry, c.entries.get key = some entry :=
        (hkept expired hentry).imp fun _ h => h.1
      unfold revalidateInBackground
      rw [hsame]
      split
      · exact ⟨.inl rfl, fun _ _ => hstored⟩
      case h_2 hnone =>
        split
        · exact ⟨.inl rfl, fun _ _ => hstored⟩
        · exact ⟨.inr ⟨hnone, _, rfl⟩, fun _ _ => hstored⟩
    case h_2 =>
      unfold joinQuery
      rw [hsame]
      split
      · exact ⟨.inl rfl, fun _ h => (by cases h)⟩
      case h_2 hnone => exact ⟨.inr ⟨hnone, _, rfl⟩, fun _ h => (by cases h)⟩

end SmartQueryCache

end QuorumCredit.Server
