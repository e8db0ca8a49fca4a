import Mathlib.Data.List.Perm.Basic
import Mathlib.Data.List.Nodup
import Mathlib.Logic.Function.Basic
/-!
# Boards

Members who decide by a threshold, some of whose keys may have been revoked. A
board can act while as many members as the threshold asks for are active. Each
change of the board is settled here exactly: when the board can still act after it.
-/

open Function

namespace Host

variable {α : Type} {revoked : α → Bool} {members members' : List α} {threshold : Nat} {x : α}

/-- The members whose approval counts. -/
def active (revoked : α → Bool) (members : List α) : List α := members.filter fun x => !revoked x

@[simp] theorem mem_active : x ∈ active revoked members ↔ x ∈ members ∧ revoked x = false := by
  simp [active]

theorem length_active_cons :
    (active revoked (x :: members)).length = (active revoked members).length + if revoked x = true then 0 else 1 := by
  cases h : revoked x <;> simp [active, h]

theorem active_perm (h : members.Perm members') : (active revoked members).Perm (active revoked members') := h.filter _

theorem length_active_le : (active revoked members).length ≤ members.length := List.length_filter_le ..

/-- All members are active if there are as many active ones as members. -/
theorem length_le_active : members.length ≤ (active revoked members).length ↔ ∀ x ∈ members, revoked x = false := by
  have hle : (active revoked members).length ≤ members.length := length_active_le
  have hall : (active revoked members).length = members.length ↔ ∀ x ∈ members, (!revoked x) = true :=
    List.length_filter_eq_length_iff
  simp only [Bool.not_eq_true'] at hall
  rw [← hall]
  omega

/-- The active members are those who stay, and the one who leaves if active. -/
theorem length_active_erase [DecidableEq α] (revoked : α → Bool) (hx : x ∈ members) :
    (active revoked members).length = (active revoked (members.erase x)).length +
      if revoked x = true then 0 else 1 := by
  rw [(active_perm (List.perm_cons_erase hx)).length_eq, length_active_cons]

/-- The board can act. -/
structure Board (revoked : α → Bool) (members : List α) (threshold : Nat) : Prop where
  nodup : members.Nodup
  positive : 1 ≤ threshold
  enough : threshold ≤ (active revoked members).length

instance [DecidableEq α] : Decidable (Board revoked members threshold) :=
  decidable_of_iff (members.Nodup ∧ 1 ≤ threshold ∧ threshold ≤ (active revoked members).length)
    ⟨fun h => ⟨h.1, h.2.1, h.2.2⟩, fun h => ⟨h.nodup, h.positive, h.enough⟩⟩

namespace Board

/-- The order of the members does not matter. -/
theorem perm (h : members.Perm members') (hb : Board revoked members threshold) : Board revoked members' threshold := by
  refine ⟨h.nodup_iff.1 hb.nodup, hb.positive, ?_⟩
  rw [← (active_perm h).length_eq]
  exact hb.enough

theorem perm_iff (h : members.Perm members') :
    Board revoked members threshold ↔ Board revoked members' threshold :=
  ⟨perm h, perm h.symm⟩

/-- A threshold the active members reach. -/
theorem threshold_iff (hb : Board revoked members threshold) {k : Nat} (hk : 1 ≤ k) :
    Board revoked members k ↔ k ≤ (active revoked members).length :=
  ⟨enough, fun h => ⟨hb.nodup, hk, h⟩⟩

/-- One who is not a member yet may join, revoked or not. -/
theorem join_iff (hb : Board revoked members threshold) :
    Board revoked (members ++ [x]) threshold ↔ x ∉ members := by
  rw [perm_iff (List.perm_append_singleton x members)]
  constructor
  · intro h
    exact (List.nodup_cons.1 h.nodup).1
  · intro hx
    refine ⟨List.nodup_cons.2 ⟨hx, hb.nodup⟩, hb.positive, ?_⟩
    rw [length_active_cons]
    exact Nat.le_add_right_of_le hb.enough

variable [DecidableEq α]

/-- Who leaves was not active, or more are than the threshold asks for. -/
theorem leave_iff (hb : Board revoked members threshold) (hx : x ∈ members) :
    Board revoked (members.erase x) threshold ↔ revoked x = true ∨ threshold < (active revoked members).length := by
  have hcount := length_active_erase revoked hx
  have henough := hb.enough
  constructor
  · intro h
    have hleft := h.enough
    cases hr : revoked x with
    | true => exact .inl rfl
    | false =>
      rw [hr, if_neg Bool.false_ne_true] at hcount
      exact .inr (by omega)
  · intro h
    refine ⟨hb.nodup.erase x, hb.positive, ?_⟩
    rcases h with hr | hlt
    · rw [hr, if_pos rfl] at hcount
      omega
    · split at hcount <;> omega

/-- One who is not a member yet takes another's place. -/
theorem replace_iff {y : α} (hb : Board revoked members threshold) (hx : x ∈ members) (hy : y ∉ members) :
    Board revoked (y :: members.erase x) threshold ↔
      revoked y = false ∨ revoked x = true ∨ threshold < (active revoked members).length := by
  have hcount := length_active_erase revoked hx
  have henough := hb.enough
  have hfresh : y ∉ members.erase x := fun hmem => hy (List.mem_of_mem_erase hmem)
  have hiff : Board revoked (y :: members.erase x) threshold ↔
      threshold ≤ (active revoked (members.erase x)).length + if revoked y = true then 0 else 1 := by
    rw [← length_active_cons]
    exact ⟨enough, fun h => ⟨List.nodup_cons.2 ⟨hfresh, hb.nodup.erase x⟩, hb.positive, h⟩⟩
  rw [hiff]
  cases hrx : revoked x <;> cases revoked y <;> simp [hrx] at hcount ⊢ <;> omega

/-- An active member is revoked, and the threshold lowered to the members that stay. -/
theorem expel_iff (hb : Board revoked members threshold) (hx : x ∈ members) (hr : revoked x = false)
    (htwo : 2 ≤ members.length) :
    Board (update revoked x true) (members.erase x) (min threshold (members.erase x).length) ↔
      threshold < (active revoked members).length ∨ ∀ y ∈ members, revoked y = false := by
  have hcount := length_active_erase revoked hx
  rw [hr, if_neg Bool.false_ne_true] at hcount
  have hlength : (members.erase x).length + 1 = members.length := List.length_erase_add_one hx
  have hle : (active revoked members).length ≤ members.length := length_active_le
  have hgone : x ∉ members.erase x := hb.nodup.not_mem_erase
  -- the one revoked is no member any more
  have hsame : active (update revoked x true) (members.erase x) = active revoked (members.erase x) := by
    refine List.filter_congr fun y hy => ?_
    have hne : y ≠ x := fun he => hgone (he ▸ hy)
    rw [update_of_ne hne]
  have hpositive := hb.positive
  rw [← length_le_active]
  constructor
  · intro h
    have henough := h.enough
    rw [hsame] at henough
    omega
  · intro h
    refine ⟨hb.nodup.erase x, by omega, ?_⟩
    rw [hsame]
    omega

end Board

end Host
