import QuorumCredit.Host.Script
import QuorumCredit.LiveLoans
import QuorumCredit.VouchMilestones
import QuorumCredit.WithdrawalQueue
/-!
# What a milestone releases

A release takes from the record the voucher has behind the loan's borrower, no more
than is there, and once for each milestone. That record is the loan's own backing
only while the loan is live: a settled loan goes on reaching its milestones.
-/

open Host Function

namespace QuorumCredit

def MilestoneStore.records (s : MilestoneStore) : Records := s.core.records

def MilestoneStore.outflow (s : MilestoneStore) (who : Address) : Int := Bank.outflow s.core.vault.bank.log who

/-! ## What a call does -/

/-- What a call that goes through found and did. -/
inductive MilestoneEffect (w : World) (s t : MilestoneStore) : MilestoneOp → Prop
  | nothing {id u m} {loan : LoanRecord} : s.core.book.loan id = some loan → t.core.book = s.core.book →
      t.records = s.records → t.milestones = s.milestones → t.outflow w.contract = s.outflow w.contract →
      MilestoneEffect w s t (.releaseVouchAtMilestone id u m)
  | released {id u m} {loan : LoanRecord} {v : VouchRecord} {amount : Int} : s.core.book.loan id = some loan →
      s.milestones.vouchMilestoneRelease id u m = none → findVouch u (s.records loan.borrower) = some v →
      0 < amount → amount ≤ v.stake → t.core.book = s.core.book →
      t.records = update s.records loan.borrower (reduceStake v amount (s.records loan.borrower)) →
      t.milestones.vouchMilestoneRelease =
        update s.milestones.vouchMilestoneRelease id (update (s.milestones.vouchMilestoneRelease id) u
          (update (s.milestones.vouchMilestoneRelease id u) m (some amount))) →
      t.outflow w.contract = s.outflow w.contract + amount →
      MilestoneEffect w s t (.releaseVouchAtMilestone id u m)
  | core {op} : t.milestones = s.milestones → Effect w s.core.book op t.core.book → VouchEffect w s.core t.core op →
      MilestoneEffect w s t (.core op)

section

variable {ctx : Context}

theorem yields_totalReleased (id : Nat) (u : Address) (m : Milestones) :
    Yields (totalReleased id u) ctx m fun _ m' => m' = m := by
  simp only [totalReleased, yields_steps]
  exact (yields_sumI128 _ _ _ _ _).mono fun _ _ h => h.2

theorem yields_withEarlyBonus (loan : LoanRecord) (amount : Int) (s : MilestoneStore) :
    Yields (withEarlyBonus loan amount) ctx s fun _ s' => s' = s := by
  simp only [withEarlyBonus, yields_steps, yields_ite, yields_i128]
  exact ⟨fun _ _ _ => trivial, fun _ => trivial⟩

theorem yields_takeStake (borrower : Address) (v : VouchRecord) (vouches : List VouchRecord) (amount : Int)
    (x : Vault) : Yields (takeStake borrower v vouches amount) ctx x fun _ y =>
      y.records = update x.records borrower (reduceStake v amount vouches) ∧
        Bank.outflow y.bank.log ctx.contract = Bank.outflow x.bank.log ctx.contract + amount := by
  simp only [takeStake, yields_steps, yields_requireAllowedToken, yields_parts, yields_pay]
  intro _ _ _
  exact ⟨Vouching.setVouches_records .., Bank.outflow_paid ..⟩

theorem yields_milestoneOp (op : MilestoneOp) (s : MilestoneStore) :
    Yields (op.run) ctx s fun _ t => MilestoneEffect ctx.toWorld s t op := by
  cases op with
  | releaseVouchAtMilestone id u m =>
    simp only [MilestoneOp.run, discard, releaseVouchAtMilestone, yields_steps, yields_requireAuth, yields_parts]
    intro _
    refine (yields_true _ _ _).mono fun _ access _ => ?_
    intro loan hloan _ hnew vouches hvouches v hfind
    refine (yields_totalReleased _ _ _).mono ?_
    rintro total _ rfl
    simp only [yields_i128]
    intro _ _
    refine (yields_withEarlyBonus _ _ _).mono ?_
    rintro releaseAmount _ rfl
    have hrecords : (s.records loan.borrower) = vouches := congrArg (Option.getD · []) hvouches
    simp only [yields_ite, yields_steps, yields_zoom]
    constructor
    · intro _
      exact .nothing hloan rfl rfl rfl rfl
    · intro hpos
      refine (yields_takeStake _ _ _ _ _).mono ?_
      rintro _ x ⟨htaken, hpaid⟩
      rw [← hrecords] at hfind htaken
      exact .released hloan hnew hfind (not_le.1 hpos) (min_le_right _ _) rfl htaken rfl hpaid
  | core op =>
    simp only [MilestoneOp.run, yields_parts]
    refine ((dispatch_effect op).and (dispatch_vouchEffect op)).mono fun _ x he => ?_
    exact .core rfl he.1 he.2

end

/-! ## The stake of one voucher -/

/-- What the voucher has in the records of a borrower, in whatever token. -/
def stakedBy (u : Address) (vouches : List VouchRecord) : Int :=
  ((vouches.filter (·.voucher = u)).map (·.stake)).sum

section

variable {u u' : Address} {vouches : List VouchRecord} {v : VouchRecord}

theorem stakedBy_cons (u : Address) (v : VouchRecord) (vouches : List VouchRecord) :
    stakedBy u (v :: vouches) = (if v.voucher = u then v.stake else 0) + stakedBy u vouches := by
  unfold stakedBy
  by_cases hv : v.voucher = u
  · simp [hv]
  · simp [hv]

theorem stakedBy_nonneg (hformed : WellFormed vouches) : 0 ≤ stakedBy u vouches := by
  apply List.sum_nonneg
  intro x hx
  obtain ⟨v, hv, rfl⟩ := List.mem_map.1 hx
  exact (hformed.staked v (List.mem_filter.1 hv).1).le

theorem stakedBy_removeVouch (hfind : findVouch u vouches = some v) :
    stakedBy u' (removeVouch u vouches) + (if u = u' then v.stake else 0) = stakedBy u' vouches := by
  induction vouches with
  | nil => cases hfind
  | cons r rs ih =>
    rw [findVouch_cons] at hfind
    rw [removeVouch, stakedBy_cons]
    split at hfind
    case isTrue hr =>
      cases hfind
      rw [if_pos hr, hr]
      exact add_comm _ _
    case isFalse hr =>
      rw [if_neg hr, stakedBy_cons, add_assoc, ih hfind]

theorem stakedBy_setStake (hfind : findVouch u vouches = some v) (stake : Int) :
    stakedBy u' (setStake u stake vouches) + (if u = u' then v.stake - stake else 0) = stakedBy u' vouches := by
  induction vouches with
  | nil => cases hfind
  | cons r rs ih =>
    rw [findVouch_cons] at hfind
    rw [setStake, stakedBy_cons]
    split at hfind
    case isTrue hr =>
      cases hfind
      rw [if_pos hr, stakedBy_cons]
      change (if v.voucher = u' then stake else 0) + stakedBy u' rs + (if u = u' then v.stake - stake else 0) = _
      rw [hr]
      split
      · omega
      · omega
    case isFalse hr =>
      rw [if_neg hr, stakedBy_cons, add_assoc, ih hfind]

theorem stakedBy_reduceStake (hfind : findVouch u vouches = some v) (amount : Int) :
    stakedBy u' (reduceStake v amount vouches) + (if u = u' then amount else 0) = stakedBy u' vouches := by
  obtain ⟨-, rfl⟩ := findVouch_some hfind
  unfold reduceStake
  split
  case isTrue hall =>
    rw [hall]
    exact stakedBy_removeVouch hfind
  case isFalse =>
    have hrest : v.stake - (v.stake - amount) = amount := Int.sub_sub_self ..
    rw [← stakedBy_setStake hfind (v.stake - amount), hrest]

end

/-! ## Reading a history -/

/-- The loan, the voucher and the milestone of a release. -/
def MilestoneOp.releases : MilestoneOp → Option ((Nat × Address) × LoanMilestone)
  | .releaseVouchAtMilestone id u m => some ((id, u), m)
  | .core _ => none

/-- What the contract paid out in the call. -/
def stakePaid (s : Situated World MilestoneStore) (t : MilestoneStore) : Int :=
  t.outflow s.world.contract - s.store.outflow s.world.contract

/-- How often the milestone has been paid out. -/
def releasesOf (id : Nat) (u : Address) (m : LoanMilestone) : MilestoneHistory → Int :=
  vouchMilestones.tally fun s op t => if op.releases = some ((id, u), m) ∧ 0 < stakePaid s t then 1 else 0

/-- What the voucher has been paid out for the loan. -/
def releasedFor (id : Nat) (u : Address) : MilestoneHistory → Int :=
  vouchMilestones.tally fun s op t => if op.releases.map Prod.fst = some (id, u) then stakePaid s t else 0

/-- The stake the voucher had when the loan was issued, plus what was added to it later. -/
def stakeBehind (id : Nat) (u : Address) : MilestoneHistory → Int :=
  vouchMilestones.replay (fun s _ t acc => (t.core.book.loan id).elim 0 fun loan =>
    if s.store.core.book.loan id = none then stakedBy u (t.records loan.borrower)
    else acc + max 0 (stakedBy u (t.records loan.borrower) - stakedBy u (s.store.records loan.borrower))) 0

/-- In the event the loan stopped being its borrower's active loan. -/
def Settles (id : Nat) (e : Situated World MilestoneStore × Event World (List Address) MilestoneStore MilestoneOp) :
    Prop :=
  e.1.store.core.book.Live id ∧ ∃ d ∈ vouchMilestones.done e.1 e.2, ¬ d.2.core.book.Live id

instance (id : Nat) (e : Situated World MilestoneStore × Event World (List Address) MilestoneStore MilestoneOp) :
    Decidable (Settles id e) :=
  inferInstanceAs (Decidable (_ ∧ ∃ d ∈ vouchMilestones.done e.1 e.2, ¬ d.2.core.book.Live id))

/-- The loan has been repaid, defaulted or replaced. -/
def WasSettled (id : Nat) (h : MilestoneHistory) : Prop := ∃ e ∈ h, Settles id e

/-- A release finds its loan Active or Repaid and not settled before, and no other loan of the borrower active. -/
def OwnBacking (h : MilestoneHistory) (s : Situated World MilestoneStore) : MilestoneOp → Prop
  | .releaseVouchAtMilestone id _ _ => ¬ WasSettled id h ∧ ∃ loan, s.store.core.book.loan id = some loan ∧
      (loan.status = .active ∨ loan.status = .repaid) ∧
      ∀ id', s.store.core.book.activeLoan loan.borrower = some id' → id' = id
  | .core _ => True

/-- Every release is out of the loan's own backing, each milestone is released once,
and a voucher gets no more than it put behind the loan. -/
structure MilestonesOwn (h : MilestoneHistory) : Prop where
  own : Throughout (fun h => vouchMilestones.WhenDone (OwnBacking h)) h
  once : ∀ id u m, releasesOf id u m h ≤ 1
  within : ∀ id u, releasedFor id u h ≤ stakeBehind id u h

/-- A release finds the loan Active, and its borrower's active loan. -/
def ReleasesLive (s : Situated World MilestoneStore) : MilestoneOp → Prop
  | .releaseVouchAtMilestone id _ _ => s.store.core.book.Live id
  | .core _ => True

instance (s : Situated World MilestoneStore) (op : MilestoneOp) : Decidable (ReleasesLive s op) := by
  unfold ReleasesLive
  split <;> infer_instance

/-! ## The books of the releases -/

/-- What holds of the releases in every run. -/
structure MilestoneBooks (h : MilestoneHistory) (s : MilestoneStore) : Prop where
  keyed : s.core.book.Keyed
  wellFormed : ∀ b, WellFormed (s.records b)
  settled : ∀ id, WasSettled id h → s.core.book.loan id ≠ none ∧ ¬ s.core.book.Live id
  once : ∀ id u m, releasesOf id u m h = if (s.milestones.vouchMilestoneRelease id u m).isSome then 1 else 0
  missing : ∀ id u, s.core.book.loan id = none → releasedFor id u h = 0 ∧ stakeBehind id u h = 0
  within : ∀ id u loan, s.core.book.loan id = some loan →
    releasedFor id u h + stakedBy u (s.records loan.borrower) ≤ stakeBehind id u h

section

variable {h : MilestoneHistory} {s : Situated World MilestoneStore} {signers : List Address} {op : MilestoneOp}
  {t : MilestoneStore}

theorem milestoneEffect_of (he : vouchMilestones.exec s signers op = some t) :
    MilestoneEffect s.world s.store t op :=
  Component.exec_yields (Q := fun t => MilestoneEffect s.world s.store t op) (yields_milestoneOp op s.store) he

theorem releasesOf_call (he : vouchMilestones.exec s signers op = some t) (id : Nat) (u : Address)
    (m : LoanMilestone) : releasesOf id u m ((s, .call signers op) :: h) =
      releasesOf id u m h + if op.releases = some ((id, u), m) ∧ 0 < stakePaid s t then 1 else 0 := by
  rw [releasesOf, Component.tally_call he]

theorem releasedFor_call (he : vouchMilestones.exec s signers op = some t) (id : Nat) (u : Address) :
    releasedFor id u ((s, .call signers op) :: h) =
      releasedFor id u h + if op.releases.map Prod.fst = some (id, u) then stakePaid s t else 0 := by
  rw [releasedFor, Component.tally_call he]

/-- The stake behind a loan that was there grows by what was added. -/
theorem stakeBehind_kept (he : vouchMilestones.exec s signers op = some t) {id : Nat} {loan loan' : LoanRecord}
    (hold : s.store.core.book.loan id = some loan) (hnew : t.core.book.loan id = some loan') (u : Address) :
    stakeBehind id u ((s, .call signers op) :: h) = stakeBehind id u h +
      max 0 (stakedBy u (t.records loan'.borrower) - stakedBy u (s.store.records loan'.borrower)) := by
  rw [stakeBehind, Component.replay_call he, hnew, hold]
  rfl

theorem stakeBehind_issued (he : vouchMilestones.exec s signers op = some t) {id : Nat} {loan : LoanRecord}
    (hold : s.store.core.book.loan id = none) (hnew : t.core.book.loan id = some loan) (u : Address) :
    stakeBehind id u ((s, .call signers op) :: h) = stakedBy u (t.records loan.borrower) := by
  rw [stakeBehind, Component.replay_call he, hnew, hold]
  rfl

theorem stakeBehind_missing (he : vouchMilestones.exec s signers op = some t) {id : Nat}
    (hnone : t.core.book.loan id = none) (u : Address) : stakeBehind id u ((s, .call signers op) :: h) = 0 := by
  rw [stakeBehind, Component.replay_call he, hnone]
  rfl

theorem settled_call (he : vouchMilestones.exec s signers op = some t) (id : Nat) :
    WasSettled id ((s, .call signers op) :: h) ↔
      (s.store.core.book.Live id ∧ ¬ t.core.book.Live id) ∨ WasSettled id h := by
  simp only [WasSettled, Settles, List.mem_cons, or_and_right, exists_or, exists_eq_left, Component.done_call he,
    Option.mem_some_iff, exists_eq_left']

/-! ### A release -/

/-- What a release does to the stakes: one record gets smaller. -/
theorem stakedBy_released {x y : Records} {b : Address} {u : Address} {v : VouchRecord} {amount : Int}
    (hfind : findVouch u (x b) = some v) (hy : y = update x b (reduceStake v amount (x b))) (u' b' : Address) :
    stakedBy u' (y b') + (if b' = b ∧ u = u' then amount else 0) = stakedBy u' (x b') := by
  rw [hy, update_apply]
  by_cases hb : b' = b
  · rw [if_pos hb, hb, ← stakedBy_reduceStake hfind amount]
    simp
  · rw [if_neg hb, if_neg (fun h => hb h.1), add_zero]

theorem MilestoneBooks.nothing (hi : MilestoneBooks h s.store) (he : vouchMilestones.exec s signers op = some t)
    (hbook : t.core.book = s.store.core.book) (hrecords : t.records = s.store.records)
    (hmilestones : t.milestones = s.store.milestones) (hpaid : stakePaid s t = 0) :
    MilestoneBooks ((s, .call signers op) :: h) t := by
  constructor
  · exact hbook ▸ hi.keyed
  · exact hrecords ▸ hi.wellFormed
  · intro id hsettled
    rw [settled_call he, hbook] at hsettled
    rw [hbook]
    rcases hsettled with ⟨hlive, hnot⟩ | hsettled
    · exact (hnot hlive).elim
    · exact hi.settled id hsettled
  · intro id u m
    rw [releasesOf_call he, hpaid, hmilestones, if_neg (fun h => lt_irrefl _ h.2), add_zero]
    exact hi.once id u m
  · intro id u hnone
    refine ⟨?_, stakeBehind_missing he hnone u⟩
    rw [hbook] at hnone
    rw [releasedFor_call he, hpaid, ite_self, add_zero]
    exact (hi.missing id u hnone).1
  · intro id u loan hloan
    have hold := hloan
    rw [hbook] at hold
    rw [releasedFor_call he, hpaid, ite_self, add_zero, stakeBehind_kept he hold hloan, hrecords, sub_self, max_self,
      add_zero]
    exact hi.within id u loan hold

theorem MilestoneBooks.released (hi : MilestoneBooks h s.store) {id : Nat} {u : Address} {m : LoanMilestone}
    {loan : LoanRecord} {v : VouchRecord} {amount : Int}
    (he : vouchMilestones.exec s signers (.releaseVouchAtMilestone id u m) = some t)
    (hloan : s.store.core.book.loan id = some loan)
    (hnew : s.store.milestones.vouchMilestoneRelease id u m = none)
    (hfind : findVouch u (s.store.records loan.borrower) = some v) (hpos : 0 < amount) (hle : amount ≤ v.stake)
    (hbook : t.core.book = s.store.core.book)
    (hrecords : t.records = update s.store.records loan.borrower (reduceStake v amount (s.store.records loan.borrower)))
    (hmilestones : t.milestones.vouchMilestoneRelease =
      update s.store.milestones.vouchMilestoneRelease id (update (s.store.milestones.vouchMilestoneRelease id) u
        (update (s.store.milestones.vouchMilestoneRelease id u) m (some amount))))
    (hpaid : stakePaid s t = amount) :
    MilestoneBooks ((s, .call signers (.releaseVouchAtMilestone id u m)) :: h) t := by
  constructor
  · exact hbook ▸ hi.keyed
  · have heffect : VouchEffect s.world s.store.core t.core (.decreaseStake u loan.borrower amount) :=
      reduceStake_effect rfl hfind hle hrecords
    exact heffect.wellFormed hi.wellFormed
  · intro id' hsettled
    rw [settled_call he, hbook] at hsettled
    rw [hbook]
    rcases hsettled with ⟨hlive, hnot⟩ | hsettled
    · exact (hnot hlive).elim
    · exact hi.settled id' hsettled
  · intro id' u' m'
    rw [releasesOf_call he, hpaid, hi.once, hmilestones]
    by_cases hid : id = id'
    · subst hid
      by_cases hu : u = u'
      · subst hu
        by_cases hm : m = m'
        · subst hm
          simp [MilestoneOp.releases, hpos, hnew]
        · simp [MilestoneOp.releases, hm, update_of_ne (Ne.symm hm)]
      · simp [MilestoneOp.releases, hu, update_of_ne (Ne.symm hu)]
    · simp [MilestoneOp.releases, hid, update_of_ne (Ne.symm hid)]
  · intro id' u' hnone
    refine ⟨?_, stakeBehind_missing he hnone u'⟩
    have hid : id ≠ id' := by
      rintro rfl
      rw [hbook, hloan] at hnone
      cases hnone
    rw [hbook] at hnone
    rw [releasedFor_call he, if_neg (by simp [MilestoneOp.releases, hid]), add_zero]
    exact (hi.missing id' u' hnone).1
  · intro id' u' loan' hloan'
    have hold := hloan'
    rw [hbook] at hold
    have hstake := stakedBy_released hfind hrecords u' loan'.borrower
    have hbooks := hi.within id' u' loan' hold
    rw [releasedFor_call he, stakeBehind_kept he hold hloan', hpaid]
    by_cases hown : id = id' ∧ u = u'
    · obtain ⟨rfl, rfl⟩ := hown
      cases hold.symm.trans hloan
      rw [if_pos ⟨rfl, rfl⟩] at hstake
      have hmove : (MilestoneOp.releaseVouchAtMilestone id u m).releases.map Prod.fst = some (id, u) := rfl
      rw [if_pos hmove]
      omega
    · rw [if_neg (by simpa [MilestoneOp.releases] using hown), add_zero]
      split at hstake
      · omega
      · omega

/-! ### A call on loans and vouches -/

theorem MilestoneBooks.core {op : Op} (hi : MilestoneBooks h s.store)
    (he : vouchMilestones.exec s signers (.core op) = some t) (hmilestones : t.milestones = s.store.milestones)
    (heffect : Effect s.world s.store.core.book op t.core.book)
    (hvouch : VouchEffect s.world s.store.core t.core op) :
    MilestoneBooks ((s, .call signers (.core op)) :: h) t := by
  have hfades := LoanBook.Fades.effect hi.keyed heffect
  have hreleased : ∀ id u, releasedFor id u ((s, .call signers (.core op)) :: h) = releasedFor id u h := by
    intro id u
    rw [releasedFor_call he]
    exact add_zero _
  constructor
  · exact hi.keyed.effect heffect
  · exact hvouch.wellFormed hi.wellFormed
  · intro id hsettled
    rw [settled_call he] at hsettled
    obtain ⟨hstored, hnot⟩ : s.store.core.book.loan id ≠ none ∧ ¬ t.core.book.Live id := by
      rcases hsettled with ⟨⟨loan, hloan, -⟩, hnot⟩ | hsettled
      · exact ⟨by rw [Option.mem_def.1 hloan]; exact Option.some_ne_none _, hnot⟩
      · obtain ⟨hstored, hdead⟩ := hi.settled id hsettled
        obtain ⟨loan, hloan⟩ := Option.ne_none_iff_exists'.1 hstored
        exact ⟨hstored, fun hlive => hdead (hfades.live hloan hlive)⟩
    obtain ⟨loan, hloan⟩ := Option.ne_none_iff_exists'.1 hstored
    obtain ⟨loan', hloan', -⟩ := hfades.stored hloan
    exact ⟨by rw [hloan']; exact Option.some_ne_none _, hnot⟩
  · intro id u m
    rw [releasesOf_call he, hmilestones, if_neg (by simp [MilestoneOp.releases]), add_zero]
    exact hi.once id u m
  · intro id u hnone
    refine ⟨?_, stakeBehind_missing he hnone u⟩
    rw [hreleased]
    cases hloan : s.store.core.book.loan id with
    | none => exact (hi.missing id u hloan).1
    | some loan =>
      obtain ⟨loan', hloan', -⟩ := hfades.stored hloan
      cases hnone.symm.trans hloan'
  · intro id u loan' hloan'
    rw [hreleased]
    cases hloan : s.store.core.book.loan id with
    | none => rw [stakeBehind_issued he hloan hloan', (hi.missing id u hloan).1, zero_add]
    | some loan =>
      obtain ⟨new, hnew, hborrower⟩ := hfades.stored hloan
      cases hnew.symm.trans hloan'
      have hbooks := hi.within id u loan hloan
      rw [stakeBehind_kept he hloan hloan', hborrower]
      omega

theorem MilestoneBooks.call (hi : MilestoneBooks h s.store) (he : vouchMilestones.exec s signers op = some t) :
    MilestoneBooks ((s, .call signers op) :: h) t := by
  cases milestoneEffect_of he with
  | nothing _ hbook hrecords hmilestones hout =>
    exact hi.nothing he hbook hrecords hmilestones (sub_eq_zero.2 hout)
  | released hloan hnew hfind hpos hle hbook hrecords hmilestones hout =>
    exact hi.released he hloan hnew hfind hpos hle hbook hrecords hmilestones (by rw [stakePaid, hout,
      add_sub_cancel_left])
  | core hmilestones heffect hvouch => exact hi.core he hmilestones heffect hvouch

/-! ## Runs -/

theorem MilestoneBooks.idle (hi : MilestoneBooks h s.store)
    {e : Event World (List Address) MilestoneStore MilestoneOp} {s' : Situated World MilestoneStore}
    (hnone : vouchMilestones.done s e = none)
    (hsame : s' = s ∨ vouchMilestones.drift s.world s.store s'.world s'.store) :
    MilestoneBooks ((s, e) :: h) s'.store := by
  obtain ⟨hmilestones, hbook, hrecords⟩ : s'.store.milestones = s.store.milestones ∧
      s'.store.core.book = s.store.core.book ∧ s'.store.records = s.store.records := by
    rcases hsame with rfl | ⟨-, -, hmilestones, hbook, hrecords⟩
    · exact ⟨rfl, rfl, rfl⟩
    · exact ⟨hmilestones, hbook, hrecords⟩
  obtain ⟨hkeyed, hformed, hsettled, honce, hmissing, hwithin⟩ := hi
  refine ⟨hbook ▸ hkeyed, hrecords ▸ hformed, fun id hset => ?_, fun id u m => ?_, fun id u hnot => ?_,
    fun id u loan hloan => ?_⟩
  · rw [hbook]
    obtain ⟨e', hmem, hend⟩ := hset
    rcases List.mem_cons.1 hmem with rfl | hmem
    · obtain ⟨-, d, hd, -⟩ := hend
      rw [hnone] at hd
      cases hd
    · exact hsettled id ⟨e', hmem, hend⟩
  · rw [releasesOf, Component.tally_idle hnone, hmilestones]
    exact honce id u m
  · rw [hbook] at hnot
    rw [releasedFor, Component.tally_idle hnone, stakeBehind, Component.replay_idle hnone]
    exact hmissing id u hnot
  · rw [hbook] at hloan
    rw [releasedFor, Component.tally_idle hnone, stakeBehind, Component.replay_idle hnone, hrecords]
    exact hwithin id u loan hloan

theorem milestoneBooks_start (world : World) (bank : Ledger) : MilestoneBooks [] (milestoneStart world bank).store := by
  constructor
  · exact LoanBook.keyed_empty
  · intro b
    exact ⟨List.forall_mem_nil _, List.nodup_nil⟩
  · rintro id ⟨e, hmem, -⟩
    cases hmem
  · intro id u m
    rfl
  · intro id u _
    exact ⟨rfl, rfl⟩
  · intro id u loan hloan
    cases hloan

/-- The books hold in every run, whatever is released. -/
theorem milestoneBooks_run {world : World} {bank : Ledger}
    (hr : Run vouchMilestones.Step (milestoneStart world bank) h s) : MilestoneBooks h s.store :=
  Component.inv (I := fun h s => MilestoneBooks h s.store) (milestoneBooks_start world bank)
    (fun _ hi he => hi.call he) (fun hi hnone hsame => hi.idle hnone hsame) hr

theorem MilestoneBooks.releasedFor_le (hi : MilestoneBooks h s.store) (id : Nat) (u : Address) :
    releasedFor id u h ≤ stakeBehind id u h := by
  cases hloan : s.store.core.book.loan id with
  | none =>
    obtain ⟨hreleased, hstake⟩ := hi.missing id u hloan
    rw [hreleased, hstake]
  | some loan =>
    have hbooks := hi.within id u loan hloan
    have hstake : 0 ≤ stakedBy u (s.store.records loan.borrower) := stakedBy_nonneg (hi.wellFormed _)
    omega

theorem MilestoneBooks.releasesOf_le (hi : MilestoneBooks h s.store) (id : Nat) (u : Address) (m : LoanMilestone) :
    releasesOf id u m h ≤ 1 := by
  rw [hi.once]
  split
  · exact le_rfl
  · exact zero_le_one

/-- A release that finds the loan live is out of the loan's own backing. -/
theorem MilestoneBooks.own_of_live (hi : MilestoneBooks h s.store) (hlive : ReleasesLive s op) :
    OwnBacking h s op := by
  cases op with
  | releaseVouchAtMilestone id u m =>
    refine ⟨fun hsettled => (hi.settled id hsettled).2 hlive, ?_⟩
    obtain ⟨loan, hloan, hactive, hptr⟩ := hlive
    refine ⟨loan, hloan, .inl hactive, fun id' hid' => ?_⟩
    exact Option.some.inj (hid'.symm.trans hptr)
  | core op => trivial

theorem own_of_run {world : World} {bank : Ledger}
    (hr : Run vouchMilestones.Step (milestoneStart world bank) h s)
    (hok : Along (vouchMilestones.WhenDone ReleasesLive) h) :
    Throughout (fun h => vouchMilestones.WhenDone (OwnBacking h)) h := by
  induction hr with
  | nil => trivial
  | snoc hr hst ih =>
    rw [Along, List.forall_mem_cons] at hok
    refine ⟨ih hok.2, fun d hd => ?_⟩
    exact (milestoneBooks_run hr).own_of_live (hok.1 d hd)

/-- In a run whose releases find their loan live, every release is out of the loan's
own backing, happens once and stays within the stake. -/
theorem milestones_release_own {world : World} {bank : Ledger}
    (hr : Run vouchMilestones.Step (milestoneStart world bank) h s)
    (hok : Along (vouchMilestones.WhenDone ReleasesLive) h) : MilestonesOwn h := by
  have hbooks := milestoneBooks_run hr
  exact ⟨own_of_run hr hok, hbooks.releasesOf_le, hbooks.releasedFor_le⟩

end

/-! ## A settled loan -/

/-- Account 2 vouches for account 10, which is then issued a loan from a pool. -/
def pooledMilestones : List (Component.Act (List Address) MilestoneOp) :=
  [.call [2] (.core (.vouch 2 10 1000000 100 0)),
    .call [1] (.core (.initializeLoanCovenants 1 10000 10000 31536000)),
    .call [1] (.core (.createLoanPool [1] [10] [500000]))]

def afterMilestones (acts : List (Component.Act (List Address) MilestoneOp)) : Situated World MilestoneStore :=
  vouchMilestones.perform World.later (milestoneStart sampleWorld sampleBank) (pooledMilestones ++ acts)

def milestoneHistory (acts : List (Component.Act (List Address) MilestoneOp)) : MilestoneHistory :=
  vouchMilestones.record World.later (milestoneStart sampleWorld sampleBank) [] (pooledMilestones ++ acts)

theorem run_milestones (acts : List (Component.Act (List Address) MilestoneOp)) :
    Run vouchMilestones.Step (milestoneStart sampleWorld sampleBank) (milestoneHistory acts) (afterMilestones acts) :=
  Component.run_perform (C := vouchMilestones) World.later
    (fun _ _ _ => ⟨Nat.le_add_right _ _, rfl, rfl, rfl, rfl⟩) .nil _

/-- Account 2 takes the first quarter, account 10 pays, and account 2 takes the second. -/
def twoMilestones : List (Component.Act (List Address) MilestoneOp) :=
  [.call [2] (.releaseVouchAtMilestone 1 2 .issued), .call [10] (.core (.repay 10 1000)),
    .call [2] (.releaseVouchAtMilestone 1 2 .firstPaymentMade)]

theorem milestones_release_two : MilestonesOwn (milestoneHistory twoMilestones) ∧
    releasedFor 1 2 (milestoneHistory twoMilestones) = 525000 := by
  constructor
  · refine milestones_release_own (run_milestones twoMilestones) ?_
    unfold Along
    decide +kernel
  · unfold releasedFor
    decide +kernel

/-- The loan is repaid, and account 2 vouches anew for account 10. -/
def newVouch : List (Component.Act (List Address) MilestoneOp) :=
  [.call [10] (.core (.repay 10 510000)), .call [2] (.core (.vouch 2 10 400000 100 0))]

/-- The loan that was repaid has its last milestone paid out of the new vouch. -/
theorem milestones_release_settled :
    ¬ ∀ world bank h s, Run vouchMilestones.Step (milestoneStart world bank) h s → MilestonesOwn h := by
  intro hclaim
  have hdone : (vouchMilestones.exec (afterMilestones newVouch) [2]
      (.releaseVouchAtMilestone 1 2 .completed)).isSome := by decide +kernel
  have hown := (hclaim _ _ _ _ ((run_milestones newVouch).snoc (.call _ [2]
    (.releaseVouchAtMilestone 1 2 .completed)))).own.2
  obtain ⟨hunsettled, -⟩ := hown _ (Component.done_call (Component.exec_of_isSome hdone))
  apply hunsettled
  unfold WasSettled
  decide +kernel

end QuorumCredit
