import Mathlib.Data.List.Nodup
/-!
# Maps in insertion order

A map that is walked in the order in which its keys were first set. Setting a
key it has leaves the key where it is; a key that was deleted and is set again
comes last.
-/

namespace Host

/-- The entries in order, with no key twice. -/
structure OrderedMap (κ ε : Type) where
  entries : List (κ × ε)
  nodup : (entries.map Prod.fst).Nodup
deriving DecidableEq

namespace OrderedMap

variable {κ ε : Type}

def empty : OrderedMap κ ε := ⟨[], List.nodup_nil⟩

def keys (m : OrderedMap κ ε) : List κ := m.entries.map Prod.fst

def values (m : OrderedMap κ ε) : List ε := m.entries.map Prod.snd

def size (m : OrderedMap κ ε) : Nat := m.entries.length

/-- The entries with `p`, in their order. -/
def filter (p : κ → ε → Bool) (m : OrderedMap κ ε) : OrderedMap κ ε :=
  ⟨m.entries.filter fun x => p x.1 x.2, m.nodup.sublist (List.filter_sublist.map _)⟩

variable [DecidableEq κ]

def get (m : OrderedMap κ ε) (k : κ) : Option ε := (m.entries.find? (·.1 = k)).map Prod.snd

/-- The value of a key it has is replaced in place, any other goes to the end. -/
def setIn (k : κ) (e : ε) : List (κ × ε) → List (κ × ε)
  | [] => [(k, e)]
  | x :: l => if x.1 = k then (k, e) :: l else x :: setIn k e l

theorem map_fst_setIn (k : κ) (e : ε) (l : List (κ × ε)) :
    (setIn k e l).map Prod.fst =
      if k ∈ l.map Prod.fst then l.map Prod.fst else (l.map Prod.fst).concat k := by
  induction l with
  | nil => simp [setIn]
  | cons x l ih =>
    by_cases hx : x.1 = k
    · simp [setIn, hx]
    · have hne : k ≠ x.1 := fun h => hx h.symm
      simp only [setIn, if_neg hx, List.map_cons, List.mem_cons, hne, false_or, ih]
      split
      · rfl
      · rfl

def set (m : OrderedMap κ ε) (k : κ) (e : ε) : OrderedMap κ ε where
  entries := setIn k e m.entries
  nodup := by
    rw [map_fst_setIn]
    split
    case isTrue => exact m.nodup
    case isFalse h => exact m.nodup.concat h

def erase (m : OrderedMap κ ε) (k : κ) : OrderedMap κ ε := m.filter fun k' _ => k' ≠ k

/-! ## What it holds -/

@[simp] theorem get_empty (k : κ) : (empty : OrderedMap κ ε).get k = none := rfl

theorem find?_setIn (k k' : κ) (e : ε) (l : List (κ × ε)) :
    (setIn k e l).find? (·.1 = k') = if k' = k then some (k, e) else l.find? (·.1 = k') := by
  induction l with
  | nil =>
    by_cases hk : k' = k
    · simp [setIn, hk]
    · have hne : k ≠ k' := fun h => hk h.symm
      simp [setIn, hk, hne]
  | cons x l ih =>
    by_cases hx : x.1 = k
    · by_cases hk : k' = k
      · simp [setIn, hx, hk]
      · have hne : k ≠ k' := fun h => hk h.symm
        simp [setIn, hx, hk, hne]
    · rw [setIn, if_neg hx, List.find?_cons, List.find?_cons, ih]
      by_cases hk : k' = k
      · simp [hk, hx]
      · simp [hk]

theorem get_set (m : OrderedMap κ ε) (k k' : κ) (e : ε) : (m.set k e).get k' = if k' = k then some e else m.get k' := by
  unfold get
  rw [show (m.set k e).entries = setIn k e m.entries from rfl, find?_setIn]
  split
  · rfl
  · rfl

@[simp] theorem get_set_self (m : OrderedMap κ ε) (k : κ) (e : ε) : (m.set k e).get k = some e := by simp [get_set]

theorem get_set_of_ne (m : OrderedMap κ ε) {k k' : κ} (e : ε) (h : k' ≠ k) : (m.set k e).get k' = m.get k' := by
  simp [get_set, h]

variable {m : OrderedMap κ ε}

theorem set_get {k : κ} {e : ε} (h : m.get k = some e) : m.set k e = m := by
  have hset : setIn k e m.entries = m.entries := by
    unfold get at h
    revert h
    induction m.entries with
    | nil => intro h; cases h
    | cons x l ih =>
      intro h
      by_cases hx : x.1 = k
      · rw [setIn, if_pos hx]
        rw [List.find?_cons_of_pos (by simpa using hx)] at h
        rw [← hx, ← Option.some.inj h]
      · rw [List.find?_cons_of_neg (by simpa using hx)] at h
        rw [setIn, if_neg hx, ih h]
  exact OrderedMap.mk.injEq .. |>.mpr hset

/-- A key has the value it is listed with. -/
theorem mem_entries {k : κ} {e : ε} : (k, e) ∈ m.entries ↔ m.get k = some e := by
  obtain ⟨l, hl⟩ := m
  unfold get
  induction l with
  | nil => simp
  | cons x l ih =>
    obtain ⟨hx, hl⟩ := List.nodup_cons.1 hl
    by_cases hk : x.1 = k
    · have hnone : (k, e) ∉ l := fun hmem => hx (by simpa [hk] using ⟨e, hmem⟩)
      obtain ⟨k', e'⟩ := x
      obtain rfl : k' = k := hk
      simp [hnone, eq_comm]
    · have hne : (k, e) ≠ x := fun h => hk (by rw [← h])
      simpa [hk, hne] using ih hl

theorem mem_values {e : ε} : e ∈ m.values ↔ ∃ k, m.get k = some e := by
  unfold values
  rw [List.mem_map]
  constructor
  · rintro ⟨⟨k, _⟩, hmem, rfl⟩
    exact ⟨k, mem_entries.1 hmem⟩
  · rintro ⟨k, hk⟩
    exact ⟨(k, e), mem_entries.2 hk, rfl⟩

theorem mem_keys {k : κ} : k ∈ m.keys ↔ ∃ e, m.get k = some e := by
  unfold keys
  rw [List.mem_map]
  constructor
  · rintro ⟨⟨_, e⟩, hmem, rfl⟩
    exact ⟨e, mem_entries.1 hmem⟩
  · rintro ⟨e, he⟩
    exact ⟨(k, e), mem_entries.2 he, rfl⟩

theorem get_eq_none {k : κ} : m.get k = none ↔ k ∉ m.keys := by
  rw [mem_keys, Option.eq_none_iff_forall_ne_some]
  simp

theorem get_filter (m : OrderedMap κ ε) (p : κ → ε → Bool) (k : κ) : (m.filter p).get k = (m.get k).filter (p k) := by
  ext e
  rw [← mem_entries, Option.filter_eq_some_iff, ← mem_entries]
  exact List.mem_filter

theorem get_erase (m : OrderedMap κ ε) (k k' : κ) : (m.erase k).get k' = if k' = k then none else m.get k' := by
  rw [erase, get_filter]
  by_cases hk : k' = k
  · simp [hk]
  · cases h : m.get k' with
    | none => simp
    | some e => simp [hk]

/-! ## Order -/

/-- A key it has stays in its place, any other comes last. -/
theorem keys_set (m : OrderedMap κ ε) (k : κ) (e : ε) :
    (m.set k e).keys = if k ∈ m.keys then m.keys else m.keys.concat k :=
  map_fst_setIn k e m.entries

theorem entries_set_of_new (m : OrderedMap κ ε) {k : κ} (h : m.get k = none) (e : ε) :
    (m.set k e).entries = m.entries ++ [(k, e)] := by
  have hnew : ∀ x ∈ m.entries, x.1 ≠ k := by
    rintro ⟨k', e'⟩ hmem rfl
    rw [mem_entries.1 hmem] at h
    cases h
  change setIn k e m.entries = _
  revert hnew
  induction m.entries with
  | nil => intro _; rfl
  | cons x l ih =>
    intro hnew
    obtain ⟨hx, hnew⟩ := List.forall_mem_cons.1 hnew
    rw [setIn, if_neg hx, ih hnew]
    rfl

theorem size_set (m : OrderedMap κ ε) (k : κ) (e : ε) :
    (m.set k e).size = if k ∈ m.keys then m.size else m.size + 1 := by
  have hkeys := congrArg List.length (keys_set m k e)
  rw [apply_ite List.length] at hkeys
  simpa [keys, size] using hkeys

theorem keys_erase (m : OrderedMap κ ε) (k : κ) : (m.erase k).keys = m.keys.erase k := by
  have hkeys : (m.erase k).keys = m.keys.filter (· != k) := by
    rw [keys, erase, filter, keys, List.filter_map]
    refine congrArg _ (List.filter_congr fun x _ => ?_)
    by_cases hx : x.1 = k
    · simp [hx]
    · simp [hx]
  rw [hkeys]
  exact (List.Nodup.erase_eq_filter m.nodup k).symm

theorem size_erase (m : OrderedMap κ ε) {k : κ} {e : ε} (h : m.get k = some e) : (m.erase k).size + 1 = m.size := by
  have hmem : k ∈ m.keys := mem_keys.2 ⟨e, h⟩
  have hlength := List.length_erase_add_one hmem
  rw [← keys_erase] at hlength
  simpa [keys, size] using hlength

theorem nodup_values_map {γ : Type} (f : ε → γ)
    (hf : ∀ k e k' e', m.get k = some e → m.get k' = some e' → f e = f e' → k = k') : (m.values.map f).Nodup := by
  unfold values
  rw [List.map_map]
  refine List.Nodup.map_on ?_ (List.Nodup.of_map _ m.nodup)
  rintro ⟨k, e⟩ hmem ⟨k', e'⟩ hmem' heq
  obtain rfl := hf k e k' e' (mem_entries.1 hmem) (mem_entries.1 hmem') heq
  exact Prod.ext rfl (Option.some.inj ((mem_entries.1 hmem).symm.trans (mem_entries.1 hmem')))

/-- Where only one value has `p`, it is the first. -/
theorem find?_values {p : ε → Bool} {k : κ} {e : ε} (he : m.get k = some e) (hp : p e = true)
    (hone : ∀ k' e', m.get k' = some e' → p e' = true → k' = k) : m.values.find? p = some e := by
  cases hfind : m.values.find? p with
  | none => exact absurd hp (List.find?_eq_none.1 hfind e (mem_values.2 ⟨k, he⟩))
  | some e' =>
    obtain ⟨k', hk'⟩ := mem_values.1 (List.mem_of_find?_eq_some hfind)
    obtain rfl := hone k' e' hk' (List.find?_some hfind)
    rw [← hk', he]

end OrderedMap

end Host
