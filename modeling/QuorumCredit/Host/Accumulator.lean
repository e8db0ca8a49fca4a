import QuorumCredit.Host.Sums
import Mathlib.Algebra.Order.Ring.Int
import Mathlib.Tactic.Linarith
import Mathlib.Tactic.Ring
/-!
# Reward accumulators

Rewards spread over many holdings without visiting them: an index grows by what
each unit held is due, scaled by a precision `c`, and a holding keeps the index it
was last settled at. A loss lowers the index. What a holding is worth, in units of
1 / `c`, is its amount, its pending rewards and what it has accrued since.

The moves are deposits, settlements, exits, claims, distributions and losses.
The weight of the holdings follows the total up to the losses taken off the total
alone, and what is paid out is covered by what comes in as long as every move is
fair: no part of a loss is rounded away, none is forgiven on exit, and what the
index moves by is what the holdings gain or lose.
-/

open Function

namespace Host

structure Holding where
  amount : Int
  snapshot : Int
  pending : Int

namespace Holding

variable (c index : Int) (x : Holding)

/-- What has accrued since the snapshot, scaled. -/
def gain : Int := (index - x.snapshot) * x.amount

/-- The holding brought up to date. -/
def settled : Holding := { x with snapshot := index, pending := x.pending + (x.gain index).tdiv c }

def worth : Int := (x.amount + x.pending) * c + x.gain index

/-- Settling rounds no part of a loss away. -/
def Even : Prop := 0 ≤ x.gain index ∨ c ∣ x.gain index

instance : Decidable (x.Even c index) := inferInstanceAs (Decidable (_ ∨ _))

variable {c index x}

theorem worth_settled : (x.settled c index).worth c index = x.worth c index - (x.gain index).tmod c := by
  have hsplit := Int.mul_tdiv_add_tmod (x.gain index) c
  have hnone : (x.settled c index).gain index = 0 := by simp [settled, gain]
  rw [worth, hnone, worth]
  simp only [settled]
  linarith [mul_comm c ((x.gain index).tdiv c), add_mul x.amount (x.pending + (x.gain index).tdiv c) c,
    add_mul x.pending ((x.gain index).tdiv c) c, add_mul x.amount x.pending c]

theorem worth_settled_le (h : x.Even c index) : (x.settled c index).worth c index ≤ x.worth c index := by
  have hmod : 0 ≤ (x.gain index).tmod c := by
    rcases h with hgain | hdvd
    · exact Int.tmod_nonneg c hgain
    · exact (Int.tmod_eq_zero_of_dvd hdvd).ge
  rw [worth_settled]
  omega

/-- A settled holding is worth a whole number, so it stays at zero or above. -/
theorem settled_nonneg (hc : 0 < c) (h : 0 ≤ x.worth c index) :
    0 ≤ (x.settled c index).amount + (x.settled c index).pending := by
  have hworth : ((x.settled c index).amount + (x.settled c index).pending) * c = (x.settled c index).worth c index := by
    simp [worth, gain, settled]
  have hmod := Int.tmod_lt_of_pos (x.gain index) hc
  rw [worth_settled] at hworth
  by_contra hneg
  have hle : ((x.settled c index).amount + (x.settled c index).pending) * c ≤ -1 * c :=
    Int.mul_le_mul_of_nonneg_right (by omega) hc.le
  omega

end Holding

/-- The holdings, what is counted as held, and the index. -/
structure Accumulator (α : Type) where
  total : Int
  index : Int
  holding : α → Holding

namespace Accumulator

variable {α : Type}

inductive Move (α : Type) where
  | deposit (a : α) (x : Int)
  | settle (a : α)
  | exit (a : α) (x : Int)
  | claim (a : α)
  | distribute (x : Int)
  | lose (x : Int)

namespace Move

def deposited : Move α → Int
  | deposit _ x => x
  | _ => 0

def yielded : Move α → Int
  | distribute x => x
  | _ => 0

def lost : Move α → Int
  | lose x => x
  | _ => 0

end Move

variable (c : Int) (f : Accumulator α)

def settled (a : α) : Holding := (f.holding a).settled c f.index

/-- What one unit held gains from `x`, scaled and truncated. -/
def share (x : Int) : Int := (x * c).tdiv f.total

/-- What a move pays out. -/
def paid : Move α → Int
  | .exit a x => max (x + (f.settled c a).pending) 0
  | .claim a => (f.settled c a).pending
  | _ => 0

/-- All that is held. -/
noncomputable def weight : Int := ∑ᶠ a, (f.holding a).amount

noncomputable def worth : Int := ∑ᶠ a, (f.holding a).worth c f.index

/-- The conditions a move is made under. -/
def Valid : Move α → Prop
  | .deposit _ x => 0 < x
  | .settle _ => True
  | .exit a x => 0 ≤ x ∧ x ≤ (f.holding a).amount
  | .claim a => 0 < (f.settled c a).pending
  | .distribute x => 0 < x ∧ 0 < f.total
  | .lose x => 0 < x ∧ x ≤ f.total

/-- The move takes nothing from what the holdings are owed together, nor gives them more than it brings. -/
def Fair : Move α → Prop
  | .deposit a _ | .settle a | .claim a => (f.holding a).Even c f.index
  | .exit a x => (f.holding a).Even c f.index ∧ 0 ≤ x + (f.settled c a).pending
  | .distribute x => f.share c x * f.weight ≤ x * c
  | .lose x => x * c ≤ f.share c x * f.weight ∧ ∀ a, f.share c x * (f.holding a).amount ≤ (f.holding a).worth c f.index

/-! ## Known holders -/

/-- Outside `holders` nothing is held. -/
def Within (holders : List α) : Prop := ∀ a, a ∉ holders → (f.holding a).amount = 0 ∧ (f.holding a).pending = 0

/-- The weight of the holdings of `holders`. -/
def held (holders : List α) : Int := (holders.map fun a => (f.holding a).amount).sum

/-- `Fair`, as far as the holdings of `holders` tell. -/
def FairOn (holders : List α) : Move α → Prop
  | .deposit a _ | .settle a | .claim a => (f.holding a).Even c f.index
  | .exit a x => (f.holding a).Even c f.index ∧ 0 ≤ x + (f.settled c a).pending
  | .distribute x => f.share c x * f.held holders ≤ x * c
  | .lose x =>
    x * c ≤ f.share c x * f.held holders ∧
      ∀ a ∈ holders, f.share c x * (f.holding a).amount ≤ (f.holding a).worth c f.index

instance (holders : List α) : (m : Move α) → Decidable (f.FairOn c holders m)
  | .deposit .. | .settle _ | .claim _ => inferInstanceAs (Decidable (Holding.Even ..))
  | .exit .. => inferInstanceAs (Decidable (_ ∧ _))
  | .distribute _ => inferInstanceAs (Decidable (_ ≤ _))
  | .lose _ => inferInstanceAs (Decidable (_ ∧ _))

/-! ## Sums over the holdings -/

/-- Only finitely many hold anything. -/
def Sparse : Prop := {a | (f.holding a).amount ≠ 0 ∨ (f.holding a).pending ≠ 0}.Finite

variable {c f}

theorem Sparse.amount (h : f.Sparse) : (support fun a => (f.holding a).amount).Finite :=
  h.subset fun _ ha => .inl ha

theorem Sparse.worth (h : f.Sparse) (c index : Int) : (support fun a => (f.holding a).worth c index).Finite := by
  refine h.subset fun a ha => ?_
  by_contra hnot
  rw [Set.mem_ofPred_eq, not_or, not_not, not_not] at hnot
  exact ha (by simp [Holding.worth, Holding.gain, hnot.1, hnot.2])

/-- The weight is that of the holders, where they are known. -/
theorem weight_eq_held [DecidableEq α] {holders : List α} (h : f.Within holders) (hnodup : holders.Nodup) :
    f.weight = f.held holders := by
  have hsub : support (fun a => (f.holding a).amount) ⊆ ↑holders.toFinset := by
    intro a ha
    by_contra hnot
    exact ha (h a (by simpa using hnot)).1
  unfold weight held
  rw [finsum_eq_sum_of_support_subset _ hsub, List.sum_toFinset _ hnodup]

theorem Within.fair [DecidableEq α] {holders : List α} (h : f.Within holders) (hnodup : holders.Nodup) {m : Move α}
    (hm : f.FairOn c holders m) : f.Fair c m := by
  cases m with
  | deposit a x => exact hm
  | settle a => exact hm
  | exit a x => exact hm
  | claim a => exact hm
  | distribute x =>
    rw [Fair, weight_eq_held h hnodup]
    exact hm
  | lose x =>
    refine ⟨?_, fun a => ?_⟩
    · rw [weight_eq_held h hnodup]
      exact hm.1
    · by_cases ha : a ∈ holders
      · exact hm.2 a ha
      · simp [Holding.worth, Holding.gain, h a ha]

/-- Moving the index changes what is held by the weight times the difference. -/
theorem worth_reindex {g : Accumulator α} (h : f.Sparse) (hg : g.holding = f.holding) {d : Int}
    (hindex : g.index = f.index + d) : g.worth c = f.worth c + d * f.weight := by
  have hone (a : α) : (f.holding a).worth c (f.index + d) = (f.holding a).worth c f.index +
      d * (f.holding a).amount := by
    simp only [Holding.worth, Holding.gain]
    ring
  have hfinite : (support fun a => d * (f.holding a).amount).Finite :=
    h.amount.subset fun a ha h0 => ha (by simp only [h0, mul_zero])
  unfold worth weight
  rw [hg, hindex, mul_finsum]
  simp only [hone]
  exact finsum_add_distrib (h.worth c f.index) hfinite

/-- While no more is held than the total, a distribution gives the holdings at most what it brings. -/
theorem share_mul_weight_le (hc : 0 < c) {x : Int} (hx : 0 ≤ x) (htotal : 0 < f.total) (hweight : f.weight ≤ f.total) :
    f.share c x * f.weight ≤ x * c := by
  have hshare : 0 ≤ f.share c x := Int.tdiv_nonneg (Int.mul_nonneg hx hc.le) htotal.le
  calc f.share c x * f.weight
    _ ≤ f.share c x * f.total := Int.mul_le_mul_of_nonneg_left hweight hshare
    _ = f.total * (x * c).tdiv f.total := mul_comm _ _
    _ ≤ x * c := Int.mul_tdiv_self_le (Int.mul_nonneg hx hc.le)

/-! ## What is paid is covered -/

/-- No holding is negative, nor worth less than nothing. -/
structure Solid (c : Int) (f : Accumulator α) : Prop where
  sparse : f.Sparse
  amount : ∀ a, 0 ≤ (f.holding a).amount
  worth : ∀ a, 0 ≤ (f.holding a).worth c f.index

theorem Solid.worth_nonneg (h : Solid c f) : 0 ≤ f.worth c := finsum_nonneg h.worth

/-! ## Moves -/

section

variable [DecidableEq α]

variable (c f) in
/-- The state after a move. -/
def apply : Move α → Accumulator α
  | .deposit a x =>
    { f with
      total := f.total + x
      holding := update f.holding a { f.settled c a with amount := (f.holding a).amount + x } }
  | .settle a => { f with holding := update f.holding a (f.settled c a) }
  | .exit a x =>
    { f with
      total := f.total - x
      holding := update f.holding a { f.settled c a with amount := (f.holding a).amount - x, pending := 0 } }
  | .claim a => { f with holding := update f.holding a { f.settled c a with pending := 0 } }
  | .distribute x => { f with index := f.index + f.share c x }
  | .lose x => { f with total := f.total - x, index := f.index - f.share c x }

theorem Sparse.update {g : Accumulator α} (h : f.Sparse) {a : α} {x : Holding}
    (hg : g.holding = update f.holding a x) : g.Sparse := by
  refine (h.insert a).subset fun b hb => ?_
  by_cases hba : b = a
  · exact .inl hba
  · rw [Set.mem_ofPred_eq, hg, update_of_ne hba] at hb
    exact .inr hb

/-- Only a deposit brings in a new holder. -/
theorem Within.apply {holders holders' : List α} (h : f.Within holders) {m : Move α} (hm : f.Valid c m)
    (hsub : ∀ a ∈ holders, a ∈ holders') (hnew : ∀ a x, m = .deposit a x → a ∈ holders') :
    (f.apply c m).Within holders' := by
  intro b hb
  have hout := h b fun hmem => hb (hsub b hmem)
  have hsettled : (f.settled c b).pending = 0 := by
    simp [settled, Holding.settled, Holding.gain, hout.1, hout.2]
  -- one holding replaced by another, empty if the first is not that of a holder
  have hupdate {a : α} {x : Holding} (hx : a = b → x.amount = 0 ∧ x.pending = 0) :
      (Function.update f.holding a x b).amount = 0 ∧ (Function.update f.holding a x b).pending = 0 := by
    rw [update_apply]
    split
    case isTrue hba => exact hx hba.symm
    case isFalse => exact hout
  cases m with
  | deposit a x =>
    refine hupdate fun hab => ?_
    rw [← hab] at hb
    exact absurd (hnew a x rfl) hb
  | settle a =>
    refine hupdate ?_
    rintro rfl
    exact ⟨hout.1, hsettled⟩
  | exit a x =>
    refine hupdate ?_
    rintro rfl
    have hamount := hout.1
    have hx : 0 ≤ x ∧ x ≤ (f.holding a).amount := hm
    exact ⟨by simp only; omega, rfl⟩
  | claim a =>
    refine hupdate ?_
    rintro rfl
    exact ⟨hout.1, rfl⟩
  | distribute x => exact hout
  | lose x => exact hout

theorem weight_update {g : Accumulator α} (h : f.Sparse) {a : α} {x : Holding}
    (hg : g.holding = Function.update f.holding a x) : g.weight = f.weight + x.amount - (f.holding a).amount := by
  unfold weight
  rw [hg]
  exact finsum_update_entry (g := Holding.amount) h.amount a x

theorem worth_update {g : Accumulator α} (h : f.Sparse) {a : α} {x : Holding}
    (hg : g.holding = Function.update f.holding a x) (hindex : g.index = f.index) :
    g.worth c = f.worth c + x.worth c f.index - (f.holding a).worth c f.index := by
  unfold worth
  rw [hg, hindex]
  exact finsum_update_entry (g := Holding.worth c f.index) (h.worth c f.index) a x

theorem sparse_apply (h : f.Sparse) (m : Move α) : (f.apply c m).Sparse := by
  cases m with
  | deposit a x => exact h.update rfl
  | settle a => exact h.update rfl
  | exit a x => exact h.update rfl
  | claim a => exact h.update rfl
  | distribute x => exact h
  | lose x => exact h

/-- A loss leaves the total short of what is held; every other move changes both alike. -/
theorem weight_apply (h : f.Sparse) (m : Move α) :
    (f.apply c m).weight - (f.apply c m).total = f.weight - f.total + m.lost := by
  cases m with
  | deposit a x =>
    rw [weight_update h rfl]
    simp only [apply, Move.lost]
    omega
  | settle a =>
    rw [weight_update h rfl]
    simp only [apply, settled, Holding.settled, Move.lost]
    omega
  | exit a x =>
    rw [weight_update h rfl]
    simp only [apply, Move.lost]
    omega
  | claim a =>
    rw [weight_update h rfl]
    simp only [apply, settled, Holding.settled, Move.lost]
    omega
  | distribute x => simp [apply, weight, Move.lost]
  | lose x =>
    simp only [apply, weight, Move.lost]
    omega

/-- One holding replaced by one that is not negative. -/
theorem Solid.update {g : Accumulator α} (h : Solid c f) (hc : 0 < c) {a : α} {x : Holding}
    (hg : g.holding = Function.update f.holding a x) (hindex : g.index = f.index) (hsnapshot : x.snapshot = f.index)
    (hamount : 0 ≤ x.amount) (hworth : 0 ≤ x.amount + x.pending) : Solid c g where
  sparse := h.sparse.update hg
  amount b := by
    rw [hg, update_apply]
    split
    · exact hamount
    · exact h.amount b
  worth b := by
    rw [hg, hindex, update_apply]
    split
    · have hmul := Int.mul_nonneg hworth hc.le
      simpa [Holding.worth, Holding.gain, hsnapshot] using hmul
    · exact h.worth b

theorem Solid.apply (h : Solid c f) (hc : 0 < c) {m : Move α} (hm : f.Valid c m) (hfair : f.Fair c m) :
    Solid c (f.apply c m) := by
  have hsettled (a : α) : 0 ≤ (f.holding a).amount + (f.settled c a).pending :=
    Holding.settled_nonneg hc (h.worth a)
  cases m with
  | deposit a x =>
    have hpos : 0 < x := hm
    have ha := h.amount a
    have hs := hsettled a
    exact h.update hc rfl rfl rfl (by simp only; omega) (by simp only; omega)
  | settle a => exact h.update hc rfl rfl rfl (h.amount a) (hsettled a)
  | exit a x =>
    have hle : x ≤ (f.holding a).amount := hm.2
    exact h.update hc rfl rfl rfl (by simp only; omega) (by simp only; omega)
  | claim a => exact h.update hc rfl rfl rfl (h.amount a) (by simpa [settled, Holding.settled] using h.amount a)
  | distribute x =>
    have hshare : 0 ≤ f.share c x := Int.tdiv_nonneg (Int.mul_nonneg hm.1.le hc.le) hm.2.le
    refine ⟨h.sparse, h.amount, fun a => ?_⟩
    have hgain := Int.mul_nonneg hshare (h.amount a)
    have hworth := h.worth a
    have hmove : (f.holding a).worth c (f.index + f.share c x) =
        (f.holding a).worth c f.index + f.share c x * (f.holding a).amount := by
      simp only [Holding.worth, Holding.gain]
      ring
    change 0 ≤ (f.holding a).worth c (f.index + f.share c x)
    omega
  | lose x =>
    refine ⟨h.sparse, h.amount, fun a => ?_⟩
    have hloss := hfair.2 a
    have hmove : (f.holding a).worth c (f.index - f.share c x) =
        (f.holding a).worth c f.index - f.share c x * (f.holding a).amount := by
      simp only [Holding.worth, Holding.gain]
      ring
    change 0 ≤ (f.holding a).worth c (f.index - f.share c x)
    omega

/-- A fair move pays out of what it brings in and of what the holdings are worth. -/
theorem paid_add_worth_le (h : Solid c f) {m : Move α} (hm : f.Valid c m) (hfair : f.Fair c m) :
    f.paid c m * c + (f.apply c m).worth c ≤ f.worth c + (m.deposited + m.yielded - m.lost) * c := by
  have hsettled (a : α) (heven : (f.holding a).Even c f.index) :
      ((f.holding a).amount + (f.settled c a).pending) * c ≤ (f.holding a).worth c f.index := by
    have hle := Holding.worth_settled_le heven
    simpa [Holding.worth, Holding.gain, settled, Holding.settled] using hle
  -- what is left of a settled holding after `y` is taken out of it
  have htaken (a : α) (x : Holding) (y : Int) (heven : (f.holding a).Even c f.index) (hsnapshot : x.snapshot = f.index)
      (hleft : x.amount + x.pending + y = (f.holding a).amount + (f.settled c a).pending) :
      y * c + x.worth c f.index ≤ (f.holding a).worth c f.index := by
    have hle := hsettled a heven
    rw [← hleft] at hle
    have hworth : x.worth c f.index = (x.amount + x.pending) * c := by simp [Holding.worth, Holding.gain, hsnapshot]
    rw [hworth]
    linarith [add_mul (x.amount + x.pending) y c]
  cases m with
  | deposit a x =>
    rw [worth_update (g := f.apply c (.deposit a x)) h.sparse rfl rfl]
    have hle := htaken a { f.settled c a with amount := (f.holding a).amount + x } (-x) hfair rfl (by simp only; omega)
    simp only [paid, Move.deposited, Move.yielded, Move.lost]
    linarith
  | settle a =>
    rw [worth_update (g := f.apply c (.settle a)) h.sparse rfl rfl]
    have hle := htaken a (f.settled c a) 0 hfair rfl (by simp [settled, Holding.settled])
    simp only [paid, Move.deposited, Move.yielded, Move.lost]
    linarith
  | exit a x =>
    rw [worth_update (g := f.apply c (.exit a x)) h.sparse rfl rfl]
    have hle := htaken a { f.settled c a with amount := (f.holding a).amount - x, pending := 0 }
      (x + (f.settled c a).pending) hfair.1 rfl (by simp only; omega)
    simp only [paid, Move.deposited, Move.yielded, Move.lost, max_eq_left hfair.2]
    linarith
  | claim a =>
    rw [worth_update (g := f.apply c (.claim a)) h.sparse rfl rfl]
    have hle := htaken a { f.settled c a with pending := 0 } (f.settled c a).pending hfair rfl
      (by simp [settled, Holding.settled])
    simp only [paid, Move.deposited, Move.yielded, Move.lost]
    linarith
  | distribute x =>
    have hle : f.share c x * f.weight ≤ x * c := hfair
    rw [worth_reindex (g := f.apply c (.distribute x)) h.sparse rfl rfl]
    simp only [paid, Move.deposited, Move.yielded, Move.lost]
    linarith
  | lose x =>
    rw [worth_reindex (g := f.apply c (.lose x)) h.sparse rfl Int.sub_eq_add_neg]
    simp only [paid, Move.deposited, Move.yielded, Move.lost]
    linarith [hfair.1]

end

end Accumulator

end Host
