import QuorumCredit.Host.Arith
import QuorumCredit.Host.Xdr
/-!
# Byte strings

Byte strings of the host. Their length is a 32-bit number, and so are the
positions in them: a string that grows too long, a piece that does not lie inside
the string and a position out of range are refused. Numbers are written with a
fixed number of bytes, the highest first.
-/

namespace Host

/-- A byte string of the host. -/
structure Bytes where
  data : List UInt8
  length_le : data.length ≤ u32Max
deriving DecidableEq

@[ext] theorem Bytes.ext {b c : Bytes} (h : b.data = c.data) : b = c := by
  cases b; cases c; cases h; rfl

variable {ε : Type}

/-- A 32-bit sum; `e` when it overflows. -/
def addU32 (e : ε) (a b : Nat) : Except ε Nat := if a + b ≤ u32Max then .ok (a + b) else .error e

/-- A 32-bit difference; `e` when it underflows. -/
def subU32 (e : ε) (a b : Nat) : Except ε Nat := if b ≤ a then .ok (a - b) else .error e

theorem addU32_of_le (e : ε) {a b : Nat} (h : a + b ≤ u32Max) : addU32 e a b = .ok (a + b) := if_pos h

theorem subU32_of_le (e : ε) {a b : Nat} (h : b ≤ a) : subU32 e a b = .ok (a - b) := if_pos h

theorem subU32_ok {e : ε} {a b n : Nat} (h : subU32 e a b = .ok n) : b ≤ a ∧ n = a - b := by
  unfold subU32 at h
  split at h
  case isTrue hle => cases h; exact ⟨hle, rfl⟩
  case isFalse => cases h

section

variable {α β : Type}

@[simp] theorem except_ok_bind (a : α) (f : α → Except ε β) : (Except.ok a >>= f) = f a := rfl

@[simp] theorem except_error_bind (e : ε) (f : α → Except ε β) : (Except.error e >>= f) = .error e := rfl

theorem except_bind_ok {x : Except ε α} {f : α → Except ε β} {b : β} (h : x >>= f = .ok b) :
    ∃ a, x = .ok a ∧ f a = .ok b := by
  cases x with
  | error e => cases h
  | ok a => exact ⟨a, rfl, h⟩

end

namespace Bytes

def empty : Bytes := ⟨[], Nat.zero_le _⟩

def len (b : Bytes) : Nat := b.data.length

/-- The string with more bytes after it. -/
def append (e : ε) (b : Bytes) (bs : List UInt8) : Except ε Bytes :=
  if h : (b.data ++ bs).length ≤ u32Max then .ok ⟨b.data ++ bs, h⟩ else .error e

/-- The bytes from `start` up to `stop`. -/
def slice (e : ε) (b : Bytes) (start stop : Nat) : Except ε (List UInt8) :=
  if start ≤ stop ∧ stop ≤ b.len then .ok ((b.data.drop start).take (stop - start)) else .error e

theorem slice_of_le (e : ε) {b : Bytes} {start n : Nat} (h : start + n ≤ b.len) :
    b.slice e start (start + n) = .ok ((b.data.drop start).take n) := by
  unfold slice
  rw [if_pos ⟨Nat.le_add_right _ _, h⟩, Nat.add_sub_cancel_left]

theorem append_of_le (e : ε) {b : Bytes} {bs : List UInt8} (h : (b.data ++ bs).length ≤ u32Max) :
    b.append e bs = .ok ⟨b.data ++ bs, h⟩ := dif_pos h

theorem append_of_lt (e : ε) {b : Bytes} {bs : List UInt8} (h : u32Max < (b.data ++ bs).length) :
    b.append e bs = .error e := dif_neg (Nat.not_le.2 h)

/-- Two appends are one. -/
theorem append_append (e : ε) (b : Bytes) (bs cs : List UInt8) :
    (b.append e bs >>= fun c => c.append e cs) = b.append e (bs ++ cs) := by
  have hassoc : b.data ++ (bs ++ cs) = (b.data ++ bs) ++ cs := (List.append_assoc _ _ _).symm
  by_cases h : (b.data ++ bs).length ≤ u32Max
  · rw [append_of_le e h, except_ok_bind]
    simp only [append, hassoc]
  · have hlong : u32Max < (b.data ++ (bs ++ cs)).length := by
      rw [hassoc, List.length_append]
      omega
    rw [append_of_lt e (Nat.not_le.1 h), except_error_bind, append_of_lt e hlong]

end Bytes

/-! ## Numbers -/

/-- The number a byte string writes, the highest byte first. -/
def ofBigEndian : List UInt8 → Nat
  | [] => 0
  | b :: bs => b.toNat * 256 ^ bs.length + ofBigEndian bs

open Xdr (bigEndian)

@[simp] theorem length_bigEndian (n value : Nat) : (bigEndian n value).length = n := by
  simp [bigEndian]

theorem bigEndian_succ (n value : Nat) :
    bigEndian (n + 1) value = UInt8.ofNat (value / 256 ^ n) :: bigEndian n value := by
  unfold bigEndian
  rw [List.range_succ_eq_map, List.map_cons, List.map_map]
  congr 1
  apply List.map_congr_left
  intro i _
  rw [Function.comp_apply, show n + 1 - 1 - (i + 1) = n - 1 - i by omega]

theorem ofBigEndian_lt (bs : List UInt8) : ofBigEndian bs < 256 ^ bs.length := by
  induction bs with
  | nil => simp [ofBigEndian]
  | cons b bs ih =>
    have hb : b.toNat * 256 ^ bs.length ≤ 255 * 256 ^ bs.length :=
      Nat.mul_le_mul_right _ (by have := b.toNat_lt; omega)
    rw [ofBigEndian, List.length_cons, pow_succ]
    omega

/-- Reading what was written. -/
theorem ofBigEndian_bigEndian {n value : Nat} (h : value < 256 ^ n) : ofBigEndian (bigEndian n value) = value := by
  suffices hmod : ∀ n, ofBigEndian (bigEndian n value) = value % 256 ^ n by
    rw [hmod, Nat.mod_eq_of_lt h]
  intro n
  induction n with
  | zero => simp [bigEndian, ofBigEndian, Nat.mod_one]
  | succ n ih =>
    have hsplit : value % 256 ^ (n + 1) = value % 256 ^ n + 256 ^ n * (value / 256 ^ n % 256) := Nat.mod_pow_succ
    rw [bigEndian_succ, ofBigEndian, ih, length_bigEndian, UInt8.toNat_ofNat', hsplit, Nat.mul_comm, Nat.add_comm]

theorem ofBigEndian_inj {bs cs : List UInt8} (hlen : bs.length = cs.length) (h : ofBigEndian bs = ofBigEndian cs) :
    bs = cs := by
  induction bs generalizing cs with
  | nil => exact (List.length_eq_zero_iff.1 hlen.symm).symm
  | cons b bs ih =>
    cases cs with
    | nil => cases hlen
    | cons c cs =>
      have hlen' : bs.length = cs.length := Nat.succ.inj hlen
      have hbs := ofBigEndian_lt bs
      have hcs := ofBigEndian_lt cs
      rw [ofBigEndian, ofBigEndian, hlen'] at h
      rw [hlen'] at hbs
      have hpos : 0 < 256 ^ cs.length := Nat.pow_pos (by decide)
      have hhead : b.toNat = c.toNat := by
        have hdiv := congrArg (· / 256 ^ cs.length) h
        simpa [Nat.mul_add_div hpos, Nat.div_eq_of_lt, hbs, hcs, Nat.mul_comm] using hdiv
      rw [hhead] at h
      rw [UInt8.toNat_inj.1 hhead, ih hlen' (Nat.add_left_cancel h)]

/-- Writing what was read. -/
theorem bigEndian_ofBigEndian (bs : List UInt8) : bigEndian bs.length (ofBigEndian bs) = bs :=
  ofBigEndian_inj (length_bigEndian _ _) (ofBigEndian_bigEndian (ofBigEndian_lt bs))

end Host
