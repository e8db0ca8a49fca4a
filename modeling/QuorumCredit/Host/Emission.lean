import QuorumCredit.Host.Totals
import Mathlib.Data.Int.ConditionallyCompleteOrder
import Mathlib.Data.Rat.Cast.Order
import Mathlib.Tactic.Linarith
import Mathlib.Tactic.Ring
/-!
# A stream shared by weight

Something is emitted at a fixed rate and shared by what each holder holds. A holder
is settled only now and then, for the whole time since it was last settled and as if
the total had been what it is now. As long as the total does not fall while somebody
is unsettled, no more is credited than was emitted: the holders that are settled
have had at most their part of the rate, and those that are not have had nothing yet.

`measure` says how much of the time up to a moment counts, so that the credit for a
window of the time is bounded too.
-/

open Function

namespace Host

/-- Who holds how much, and up to when each holder is settled. -/
structure Stream (α : Type) where
  amount : α → Int
  settled : α → Nat
  total : Int

namespace Stream

variable {α : Type} {F F' : Stream α} {measure : Nat → Int} {rate credited : ℚ} {now : Nat}

/-- The total is that of the amounts, and nobody is settled ahead of time. -/
structure Sound (F : Stream α) (now : Nat) : Prop where
  total : Totals F.amount F.total
  amount : ∀ a, 0 ≤ F.amount a
  settled : ∀ a, F.amount a ≠ 0 → F.settled a ≤ now

/-- The time for which the holders are settled, weighed by what they hold. -/
noncomputable def area (F : Stream α) (measure : Nat → Int) : Int := ∑ᶠ a, F.amount a * measure (F.settled a)

/-- What has been credited is within the rate: in proportion to the settled time, and as a whole. -/
structure Emitted (F : Stream α) (measure : Nat → Int) (rate credited : ℚ) (now : Nat) : Prop where
  shared : credited * F.total ≤ rate * F.area measure
  bounded : credited ≤ rate * measure now

/-- Streams that differ in the time of those who hold nothing. -/
structure Same (F F' : Stream α) : Prop where
  amount : F'.amount = F.amount
  settled : ∀ a, F.amount a ≠ 0 → F'.settled a = F.settled a
  total : F'.total = F.total

theorem Same.area (h : Same F F') (measure : Nat → Int) : F'.area measure = F.area measure := by
  apply finsum_congr
  intro a
  rw [h.amount]
  by_cases ha : F.amount a = 0
  · rw [ha, zero_mul, zero_mul]
  · rw [h.settled a ha]

theorem Same.sound (h : Same F F') (hs : F.Sound now) : F'.Sound now := by
  obtain ⟨htotal, hamount, hsettled⟩ := hs
  constructor
  · exact htotal.congr h.amount h.total
  · rw [h.amount]
    exact hamount
  · intro a ha
    rw [h.amount] at ha
    rw [h.settled a ha]
    exact hsettled a ha

theorem Same.emitted (h : Same F F') (he : F.Emitted measure rate credited now) :
    F'.Emitted measure rate credited now := by
  refine ⟨?_, he.bounded⟩
  rw [h.area, h.total]
  exact he.shared

/-! ## Settling and holding -/

section

variable [DecidableEq α]

/-- `a` is settled. -/
def settle (F : Stream α) (a : α) (now : Nat) : Stream α := { F with settled := update F.settled a now }

/-- `a` holds `v`. -/
def hold (F : Stream α) (a : α) (v : Int) : Stream α :=
  { F with amount := update F.amount a v, total := F.total + v - F.amount a }

theorem Sound.settle (hs : F.Sound now) (a : α) : (F.settle a now).Sound now := by
  refine ⟨hs.total, hs.amount, fun b hb => ?_⟩
  simp only [Stream.settle, update_apply]
  split
  · exact le_rfl
  · exact hs.settled b hb

theorem Sound.hold (hs : F.Sound now) {a : α} {v : Int} (hv : 0 ≤ v) (ha : F.settled a ≤ now) :
    (F.hold a v).Sound now := by
  refine ⟨hs.total.update a v, fun b => ?_, fun b hb => ?_⟩
  · simp only [Stream.hold, update_apply]
    split
    · exact hv
    · exact hs.amount b
  · by_cases hba : b = a
    · rw [hba]
      exact ha
    · refine hs.settled b ?_
      simpa [Stream.hold, hba] using hb

end

theorem Sound.later (hs : F.Sound now) {now' : Nat} (hle : now ≤ now') : F.Sound now' :=
  ⟨hs.total, hs.amount, fun a ha => (hs.settled a ha).trans hle⟩

/-! ## The area -/

theorem Sound.totals_area (hs : F.Sound now) (measure : Nat → Int) :
    Totals (fun a => F.amount a * measure (F.settled a)) (F.area measure) where
  finite := hs.total.finite.subset fun _ ha hzero => ha (mul_eq_zero_of_left hzero _)
  sum := rfl

/-- Once everybody is settled the area is all of the time. -/
theorem Sound.area_of_settled (hs : F.Sound now) (hall : ∀ a, F.amount a ≠ 0 → F.settled a = now) :
    F.area measure = F.total * measure now := by
  rw [hs.total.sum, finsum_mul]
  apply finsum_congr
  intro a
  by_cases ha : F.amount a = 0
  · rw [ha, zero_mul, zero_mul]
  · rw [hall a ha]

theorem Sound.area_le (hs : F.Sound now) (hmono : Monotone measure) : F.area measure ≤ F.total * measure now := by
  rw [hs.total.sum, finsum_mul]
  refine finsum_le_finsum' (hs.totals_area measure).finite ?_ fun a => ?_
  · exact hs.total.finite.subset fun _ ha hzero => ha (mul_eq_zero_of_left hzero _)
  · by_cases ha : F.amount a = 0
    · rw [ha, zero_mul, zero_mul]
    · exact mul_le_mul_of_nonneg_left (hmono (hs.settled a ha)) (hs.amount a)

section

variable [DecidableEq α] {a : α}

theorem Sound.area_settle (hs : F.Sound now) (measure : Nat → Int) (a : α) (now' : Nat) :
    (F.settle a now').area measure =
      F.area measure + F.amount a * measure now' - F.amount a * measure (F.settled a) := by
  have hupdated : (fun b => (F.settle a now').amount b * measure ((F.settle a now').settled b)) =
      update (fun b => F.amount b * measure (F.settled b)) a (F.amount a * measure now') := by
    funext b
    by_cases hb : b = a
    · simp [hb, Stream.settle]
    · simp [hb, Stream.settle]
  rw [((hs.totals_area measure).update a (F.amount a * measure now')).sum, area, hupdated]

theorem Sound.area_hold (hs : F.Sound now) (measure : Nat → Int) (a : α) (v : Int) :
    (F.hold a v).area measure = F.area measure + v * measure (F.settled a) - F.amount a * measure (F.settled a) := by
  have hupdated : (fun b => (F.hold a v).amount b * measure ((F.hold a v).settled b)) =
      update (fun b => F.amount b * measure (F.settled b)) a (v * measure (F.settled a)) := by
    funext b
    by_cases hb : b = a
    · simp [hb, Stream.hold]
    · simp [hb, Stream.hold]
  rw [((hs.totals_area measure).update a (v * measure (F.settled a))).sum, area, hupdated]

/-! ## What is emitted -/

/-- Settling `a` for no more than its part of the rate. Who holds nothing is credited nothing. -/
theorem Emitted.settle (he : F.Emitted measure rate credited now) (hs : F.Sound now) (hmono : Monotone measure)
    (hrate : 0 ≤ rate) {c : ℚ} (hnone : F.amount a = 0 → c = 0)
    (hpart : c * F.total ≤ rate * (F.amount a * (measure now - measure (F.settled a)) : Int)) :
    (F.settle a now).Emitted measure rate (credited + c) now := by
  by_cases ha : F.amount a = 0
  · rw [hnone ha, add_zero]
    refine ⟨?_, he.bounded⟩
    rw [hs.area_settle, ha, zero_mul, zero_mul, add_zero, sub_zero]
    exact he.shared
  have htotal : 0 < F.total := by
    have hle := hs.total.entry_le hs.amount a
    have hpos := hs.amount a
    omega
  have hshared : (credited + c) * (F.settle a now).total ≤ rate * (F.settle a now).area measure := by
    have hsplit : ((F.settle a now).area measure : ℚ) =
        F.area measure + (F.amount a * (measure now - measure (F.settled a)) : Int) := by
      rw [hs.area_settle]
      push_cast
      ring
    calc (credited + c) * (F.settle a now).total = credited * F.total + c * F.total := add_mul _ _ _
      _ ≤ rate * F.area measure + rate * (F.amount a * (measure now - measure (F.settled a)) : Int) :=
        add_le_add he.shared hpart
      _ = rate * (F.settle a now).area measure := by rw [hsplit, mul_add]
  refine ⟨hshared, ?_⟩
  have harea : ((F.settle a now).area measure : ℚ) ≤ measure now * F.total := by
    rw [mul_comm]
    exact_mod_cast (hs.settle a).area_le hmono
  have hpos : (0 : ℚ) < F.total := by exact_mod_cast htotal
  refine le_of_mul_le_mul_right ?_ hpos
  calc (credited + c) * F.total ≤ rate * (F.settle a now).area measure := hshared
    _ ≤ rate * (measure now * F.total) := mul_le_mul_of_nonneg_left harea hrate
    _ = rate * measure now * F.total := (mul_assoc _ _ _).symm

/-- A settled holder may hold more. -/
theorem Emitted.increase (he : F.Emitted measure rate credited now) (hs : F.Sound now) (ha : F.settled a = now)
    {v : Int}
    (hv : F.amount a ≤ v) : (F.hold a v).Emitted measure rate credited now := by
  refine ⟨?_, he.bounded⟩
  have hgain : (0 : ℚ) ≤ ((v - F.amount a : Int) : ℚ) := by exact_mod_cast Int.sub_nonneg.2 hv
  have hsplit : ((F.hold a v).area measure : ℚ) = F.area measure + ((v - F.amount a : Int) : ℚ) * measure now := by
    rw [hs.area_hold, ha]
    push_cast
    ring
  have htotal : ((F.hold a v).total : ℚ) = F.total + ((v - F.amount a : Int) : ℚ) := by
    simp only [Stream.hold]
    push_cast
    ring
  calc credited * (F.hold a v).total = credited * F.total + credited * ((v - F.amount a : Int) : ℚ) := by
        rw [htotal, mul_add]
    _ ≤ rate * F.area measure + rate * measure now * ((v - F.amount a : Int) : ℚ) :=
      add_le_add he.shared (mul_le_mul_of_nonneg_right he.bounded hgain)
    _ = rate * (F.hold a v).area measure := by
      rw [hsplit]
      ring

/-- When all are settled, a holder may hold less. -/
theorem Emitted.decrease (he : F.Emitted measure rate credited now) (hs : F.Sound now)
    (hall : ∀ b, F.amount b ≠ 0 → F.settled b = now) (ha : F.settled a = now) {v : Int} (hv : 0 ≤ v) :
    (F.hold a v).Emitted measure rate credited now := by
  have hs' : (F.hold a v).Sound now := hs.hold hv ha.le
  have hall' : ∀ b, (F.hold a v).amount b ≠ 0 → (F.hold a v).settled b = now := by
    intro b hb
    by_cases hba : b = a
    · rw [hba]
      exact ha
    · refine hall b ?_
      simpa [Stream.hold, hba] using hb
  refine ⟨?_, he.bounded⟩
  have htotal : (0 : ℚ) ≤ ((F.hold a v).total : ℚ) := by exact_mod_cast hs'.total.nonneg hs'.amount
  calc credited * (F.hold a v).total ≤ rate * measure now * (F.hold a v).total :=
        mul_le_mul_of_nonneg_right he.bounded htotal
    _ = rate * (F.hold a v).area measure := by
      rw [hs'.area_of_settled hall']
      push_cast
      ring

end

theorem Emitted.later (he : F.Emitted measure rate credited now) (hmono : Monotone measure) (hrate : 0 ≤ rate)
    {now' : Nat} (hle : now ≤ now') : F.Emitted measure rate credited now' := by
  refine ⟨he.shared, he.bounded.trans (mul_le_mul_of_nonneg_left ?_ hrate)⟩
  exact_mod_cast hmono hle

/-- With nothing held, nothing was emitted. -/
theorem emitted_empty (hamount : F.amount = fun _ => 0) (htotal : F.total = 0) (hrate : 0 ≤ rate)
    (hmeasure : 0 ≤ measure now) : F.Emitted measure rate 0 now := by
  constructor
  · rw [htotal, area, hamount]
    simp
  · have hpos : (0 : ℚ) ≤ measure now := by exact_mod_cast hmeasure
    positivity

end Stream

/-! ## Windows of the time -/

/-- How much of the window from `t₁` to `t₂` lies before `t`. -/
def windowed (t₁ t₂ t : Nat) : Int := (min (max t t₁) t₂ : Nat) - (min t₁ t₂ : Nat)

theorem windowed_mono (t₁ t₂ : Nat) : Monotone (windowed t₁ t₂) := by
  intro t t' hle
  unfold windowed
  omega

theorem windowed_nonneg (t₁ t₂ t : Nat) : 0 ≤ windowed t₁ t₂ t := by
  unfold windowed
  omega

/-- The window is not longer than it is. -/
theorem windowed_le {t₁ t₂ : Nat} (hle : t₁ ≤ t₂) (t : Nat) : windowed t₁ t₂ t ≤ t₂ - t₁ := by
  unfold windowed
  omega

end Host
