import Mathlib.Tactic.Ring
import Mathlib.Tactic.Linarith
import Mathlib.Data.Nat.Log
/-!
# Whole numbers as doubles

A whole number far below the largest double is read as the nearest multiple of
a power of two that leaves 53 bits, the even one of two. The text of a number
has the fewest digits that are read as it again.
-/

namespace Host.Double

/-- To the nearest multiple of `2 ^ e`, on a tie to the even one. -/
def roundTo (e m : Nat) : Nat :=
  if 2 * (m % 2 ^ e) < 2 ^ e ∨ 2 * (m % 2 ^ e) = 2 ^ e ∧ m / 2 ^ e % 2 = 0 then m / 2 ^ e * 2 ^ e
  else (m / 2 ^ e + 1) * 2 ^ e

def ofNat (m : Nat) : Nat := roundTo (Nat.log2 m - 52) m

def ofInt (x : Int) : Int := x.sign * ofNat x.natAbs

theorem roundTo_of_dvd {e m : Nat} (h : 2 ^ e ∣ m) : roundTo e m = m := by
  have hr : m % 2 ^ e = 0 := Nat.mod_eq_zero_of_dvd h
  rw [roundTo, if_pos (Or.inl (by rw [hr, Nat.mul_zero]; exact Nat.two_pow_pos e))]
  exact Nat.div_mul_cancel h

theorem ofNat_of_lt {m : Nat} (h : m < 2 ^ 53) : ofNat m = m := by
  have hlog : Nat.log2 m - 52 = 0 := by
    by_cases hm : m = 0
    · subst hm; rfl
    · have := (Nat.log2_lt hm).2 h
      omega
  rw [ofNat, hlog]
  exact roundTo_of_dvd (Nat.one_dvd m)

/-- Rounding to 53 bits yields a number of 53 bits. -/
theorem ofNat_ofNat (m : Nat) : ofNat (ofNat m) = ofNat m := by
  by_cases hsmall : m < 2 ^ 53
  · rw [ofNat_of_lt hsmall, ofNat_of_lt hsmall]
  have hm : m ≠ 0 := by rintro rfl; exact hsmall (by norm_num)
  obtain ⟨e, he⟩ : ∃ e, Nat.log2 m = e + 52 := by
    have hlog := (Nat.le_log2 hm).2 (le_trans (by norm_num : 2 ^ 52 ≤ 2 ^ 53) (not_lt.1 hsmall))
    exact ⟨Nat.log2 m - 52, by omega⟩
  have hq : m / 2 ^ e < 2 ^ 53 := by
    rw [Nat.div_lt_iff_lt_mul (Nat.two_pow_pos e), ← pow_add]
    exact (Nat.log2_lt hm).1 (by omega)
  -- the rounded number is `k * 2 ^ e` with `k` at most `2 ^ 53`
  obtain ⟨k, hk, hround⟩ : ∃ k ≤ 2 ^ 53, ofNat m = k * 2 ^ e := by
    rw [ofNat, he, Nat.add_sub_cancel, roundTo]
    split
    · exact ⟨m / 2 ^ e, hq.le, rfl⟩
    · exact ⟨m / 2 ^ e + 1, hq, rfl⟩
  rw [hround]
  refine roundTo_of_dvd ?_
  by_cases hz : k = 0
  · simp [hz]
  have hne : k * 2 ^ e ≠ 0 := Nat.mul_ne_zero hz (Nat.two_pow_pos e).ne'
  rcases hk.lt_or_eq with hlt | rfl
  · have hlog : Nat.log2 (k * 2 ^ e) < 53 + e := by
      rw [Nat.log2_lt hne, pow_add]
      exact Nat.mul_lt_mul_of_pos_right hlt (Nat.two_pow_pos e)
    exact Dvd.dvd.mul_left (Nat.pow_dvd_pow 2 (by omega)) k
  · rw [← pow_add]
    refine Nat.pow_dvd_pow 2 ?_
    rw [Nat.log2_two_pow]
    omega

@[simp] theorem ofInt_zero : ofInt 0 = 0 := rfl

@[simp] theorem ofInt_natCast (m : Nat) : ofInt m = ofNat m := by
  by_cases hm : m = 0
  · subst hm
    rfl
  · rw [ofInt, Int.sign_natCast_of_ne_zero hm, one_mul, Int.natAbs_natCast]

theorem ofInt_sign_mul {x : Int} (hx : x ≠ 0) (n : Nat) : ofInt (x.sign * n) = x.sign * ofNat n := by
  by_cases hn : n = 0
  · subst hn
    simp [show ofNat 0 = 0 from rfl]
  · have hsign : (x.sign * (n : Int)).sign = x.sign := by
      rw [Int.sign_mul, Int.sign_sign, Int.sign_natCast_of_ne_zero hn, mul_one]
    have habs : (x.sign * (n : Int)).natAbs = n := by
      rw [Int.natAbs_mul, Int.natAbs_sign_of_ne_zero hx, one_mul, Int.natAbs_natCast]
    rw [ofInt, hsign, habs]

theorem ofInt_ofInt (x : Int) : ofInt (ofInt x) = ofInt x := by
  by_cases hx : x = 0
  · rw [hx]
    rfl
  · conv_lhs => rw [ofInt.eq_def x, ofInt_sign_mul hx, ofNat_ofNat]
    rfl

/-! ## Texts -/

/-- The nearest multiple of `10 ^ k`. -/
def nearestMultiple (m k : Nat) : Nat := (m + 10 ^ k / 2) / 10 ^ k * 10 ^ k

/-- The number with the fewest digits that is read as `m`, for `m` below `10 ^ 21`. -/
def shortest (m : Nat) : Nat :=
  (((List.range 21).reverse.map (nearestMultiple m)).find? fun c => ofNat c = m).getD m

/-- The text of a number. -/
def text (x : Int) : String := Int.repr (x.sign * shortest x.natAbs)

theorem ofNat_shortest {m : Nat} (hm : ofNat m = m) : ofNat (shortest m) = m := by
  unfold shortest
  cases hfind : ((List.range 21).reverse.map (nearestMultiple m)).find? fun c => ofNat c = m with
  | none => exact hm
  | some c => simpa using List.find?_some hfind

theorem text_natCast (m : Nat) : text m = (shortest m).repr := by
  by_cases hm : m = 0
  · subst hm
    rfl
  · rw [text, Int.sign_natCast_of_ne_zero hm, one_mul]
    rfl

/-- Distinct doubles have distinct texts. -/
theorem text_inj {m n : Nat} (hm : ofNat m = m) (hn : ofNat n = n) (h : text m = text n) : m = n := by
  rw [text_natCast, text_natCast] at h
  have hdigits : Nat.toDigits 10 (shortest m) = Nat.toDigits 10 (shortest n) := by
    rw [← Nat.toList_repr, h, Nat.toList_repr]
  have hread := congrArg (Nat.ofDigitChars 10 · 0) hdigits
  simp only [Nat.ofDigitChars_toDigits (by decide : 1 < 10) (by decide : 10 ≤ 10)] at hread
  rw [← ofNat_shortest hm, hread, ofNat_shortest hn]

end Host.Double
