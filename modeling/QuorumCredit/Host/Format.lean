import QuorumCredit.Host.Bytes
/-!
# Binary formats

A format says how a value is written and how one is read off the front of a byte
string. It is exact: what was written reads back, whatever comes after it, and
what reads was written so. Formats are put together from words, sized strings and
pairs; a list is written as its members one after the other and read to the end
of the string.
-/

namespace Host

open Xdr (bigEndian)

/-- An exact binary format of the values that fit it. -/
structure Format (α : Type) where
  Fits : α → Prop
  write : α → List UInt8
  read : List UInt8 → Option (α × List UInt8)
  read_write : ∀ {a}, Fits a → ∀ rest, read (write a ++ rest) = some (a, rest)
  of_read : ∀ {bs a rest}, read bs = some (a, rest) → Fits a ∧ bs = write a ++ rest

namespace Format

variable {α β : Type}

/-- A number in `n` bytes. -/
def word (n : Nat) : Format Nat where
  Fits value := value < 256 ^ n
  write := bigEndian n
  read bs := if n ≤ bs.length then some (ofBigEndian (bs.take n), bs.drop n) else none
  read_write := by
    intro value hfits rest
    have htake : (bigEndian n value ++ rest).take n = bigEndian n value := by simp
    have hdrop : (bigEndian n value ++ rest).drop n = rest := by simp
    rw [if_pos (by simp), htake, hdrop, ofBigEndian_bigEndian hfits]
  of_read := by
    intro bs value rest h
    split at h
    case isTrue hlen =>
      cases h
      have hsize : (bs.take n).length = n := List.length_take_of_le hlen
      have hlt := ofBigEndian_lt (bs.take n)
      have hback := bigEndian_ofBigEndian (bs.take n)
      rw [hsize] at hlt hback
      exact ⟨hlt, by rw [hback, List.take_append_drop]⟩
    case isFalse => cases h

/-- A string after its length in `n` bytes, which must meet `ok`. -/
def sized (n : Nat) (ok : Nat → Prop) [DecidablePred ok] : Format (List UInt8) where
  Fits bs := ok bs.length ∧ bs.length < 256 ^ n
  write bs := (word n).write bs.length ++ bs
  read bs := ((word n).read bs).bind fun p =>
    if ok p.1 ∧ p.1 ≤ p.2.length then some (p.2.take p.1, p.2.drop p.1) else none
  read_write := by
    intro bs hfits rest
    rw [List.append_assoc, (word n).read_write hfits.2, Option.bind_some,
      if_pos ⟨hfits.1, by rw [List.length_append]; omega⟩, List.take_left, List.drop_left]
  of_read := by
    intro bs a rest h
    obtain ⟨⟨len, bs'⟩, hword, hrest⟩ := Option.bind_eq_some_iff.1 h
    obtain ⟨hlt, rfl⟩ := (word n).of_read hword
    split at hrest
    case isTrue hok =>
      cases hrest
      have hlen : (bs'.take len).length = len := List.length_take_of_le hok.2
      exact ⟨by rw [hlen]; exact ⟨hok.1, hlt⟩, by rw [hlen, List.append_assoc, List.take_append_drop]⟩
    case isFalse => cases hrest

/-- One value after the other. -/
def pair (f : Format α) (g : Format β) : Format (α × β) where
  Fits p := f.Fits p.1 ∧ g.Fits p.2
  write p := f.write p.1 ++ g.write p.2
  read bs := (f.read bs).bind fun p => (g.read p.2).map fun q => ((p.1, q.1), q.2)
  read_write := by
    intro p hfits rest
    rw [List.append_assoc, f.read_write hfits.1, Option.bind_some, g.read_write hfits.2, Option.map_some]
  of_read := by
    intro bs p rest h
    obtain ⟨⟨a, bs'⟩, hf, hmap⟩ := Option.bind_eq_some_iff.1 h
    obtain ⟨⟨b, rest'⟩, hg, hp⟩ := Option.map_eq_some_iff.1 hmap
    cases hp
    obtain ⟨hfits, rfl⟩ := f.of_read hf
    obtain ⟨hfits', rfl⟩ := g.of_read hg
    exact ⟨⟨hfits, hfits'⟩, (List.append_assoc _ _ _).symm⟩

/-- The same format for another representation of the values. -/
def iso (f : Format α) (made : α → β) (parts : β → α) (h : ∀ a, f.Fits a → parts (made a) = a)
    (h' : ∀ b, made (parts b) = b) : Format β where
  Fits b := f.Fits (parts b)
  write b := f.write (parts b)
  read bs := (f.read bs).map fun p => (made p.1, p.2)
  read_write := by
    intro b hfits rest
    rw [f.read_write hfits, Option.map_some, h']
  of_read := by
    intro bs b rest hread
    obtain ⟨⟨a, rest'⟩, hf, hp⟩ := Option.map_eq_some_iff.1 hread
    cases hp
    obtain ⟨hfits, rfl⟩ := f.of_read hf
    dsimp only
    rw [h a hfits]
    exact ⟨hfits, rfl⟩

theorem read_word (n : Nat) (bs : List UInt8) :
    (word n).read bs = if n ≤ bs.length then some (ofBigEndian (bs.take n), bs.drop n) else none := rfl

theorem read_sized (n : Nat) (ok : Nat → Prop) [DecidablePred ok] (bs : List UInt8) :
    (sized n ok).read bs = ((word n).read bs).bind fun p =>
      if ok p.1 ∧ p.1 ≤ p.2.length then some (p.2.take p.1, p.2.drop p.1) else none := rfl

theorem read_pair (f : Format α) (g : Format β) (bs : List UInt8) :
    (f.pair g).read bs = (f.read bs).bind fun p => (g.read p.2).map fun q => ((p.1, q.1), q.2) := rfl

/-! ## Lists -/

variable (f : Format α)

/-- The values, one after the other. -/
def writeAll (as : List α) : List UInt8 := (as.map f.write).flatten

@[simp] theorem writeAll_nil : f.writeAll [] = [] := rfl

@[simp] theorem writeAll_cons (a : α) (as : List α) : f.writeAll (a :: as) = f.write a ++ f.writeAll as := rfl

/-- Values to the end of the string. -/
def readAll (bs : List UInt8) : Option (List α) :=
  if bs = [] then some []
  else
    match f.read bs with
    | none => none
    | some (a, rest) => if rest.length < bs.length then (readAll rest).map (a :: ·) else none
termination_by bs.length

variable {f}

/-- Where no value is written as nothing, a string reads as a list exactly when the list is written so. -/
theorem readAll_eq_some_iff (hne : ∀ a, f.Fits a → f.write a ≠ []) {bs : List UInt8} {as : List α} :
    f.readAll bs = some as ↔ (∀ a ∈ as, f.Fits a) ∧ bs = f.writeAll as := by
  induction as generalizing bs with
  | nil =>
    rw [readAll]
    split
    case isTrue hnil => simp [hnil]
    case isFalse hnil =>
      refine iff_of_false (fun h => ?_) fun h => hnil h.2
      split at h
      · cases h
      · split at h
        · obtain ⟨l, -, hcons⟩ := Option.map_eq_some_iff.1 h
          cases hcons
        · cases h
  | cons a as ih =>
    rw [readAll, List.forall_mem_cons, writeAll_cons]
    constructor
    · intro h
      split at h
      case isTrue => cases h
      case isFalse =>
        split at h
        · cases h
        · rename_i a' rest hread
          split at h
          · obtain ⟨as', hrest, hcons⟩ := Option.map_eq_some_iff.1 h
            cases hcons
            obtain ⟨hfits, rfl⟩ := f.of_read hread
            obtain ⟨hall, rfl⟩ := ih.1 hrest
            exact ⟨⟨hfits, hall⟩, rfl⟩
          · cases h
    · rintro ⟨⟨hfits, hall⟩, rfl⟩
      have hwrite := List.length_pos_iff.2 (hne a hfits)
      rw [if_neg (List.append_ne_nil_of_left_ne_nil (hne a hfits) _), f.read_write hfits]
      dsimp only
      rw [if_pos (by rw [List.length_append]; omega), ih.2 ⟨hall, rfl⟩, Option.map_some]

end Format

end Host
