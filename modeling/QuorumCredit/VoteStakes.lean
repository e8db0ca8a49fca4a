import QuorumCredit.SlashVotes
import QuorumCredit.Stakes
import Mathlib.Data.List.Perm.Subperm
import Mathlib.Algebra.Order.BigOperators.Group.List
/-!
# Each stake votes once

A vote on a slash carries the voter's own stake and the stakes delegated to the
voter. The record of the vote keeps the voters and not the stakes they carried,
so a delegator who takes the vote back after it was cast may vote again. As long
as no stake that was carried comes back to a later voter, each stake is counted
once, on one side.
-/

open Host Function

namespace QuorumCredit

/-! ## What one vote counts -/

/-- The stake on one side of the vote. -/
def SlashVoteRecord.stakeFor (vote : SlashVoteRecord) (side : Bool) : Int :=
  if side = true then vote.approveStake else vote.rejectStake

/-- `new` is `old` with one more vote counted. -/
structure Counted (old new : SlashVoteRecord) (voter : Address) (stake : Int) (approve : Bool) : Prop where
  stakeFor : ∀ side, new.stakeFor side = (if side = approve then stake else 0) + old.stakeFor side
  voters : new.voters = old.voters ++ [voter]

/-- The records a vote of `voter` counts: its own first record and those delegated to it. -/
def Store.carried (s : Store) (b voter : Address) : List VouchRecord :=
  (findVouch voter (s.records b)).toList ++ delegatedTo s.ballots voter (s.records b)

/-- The vote on `b` as it stands. -/
def Ballots.voteOn (x : Ballots) (b : Address) : SlashVoteRecord := (x.slashVote b).getD .fresh

/-- What a call of `vote_slash` leaves: nothing where the voter's delegate will vote, else the vote counted. -/
structure VoteEffect (s : Store) (voter b : Address) (approve : Bool) (t : Store) : Prop where
  deferred : s.ballots.resolveVoteDelegation voter ≠ voter → t.ballots.slashVote = s.ballots.slashVote
  counted : s.ballots.resolveVoteDelegation voter = voter → ∃ own new, findVouch voter (s.records b) = some own ∧
    (∀ v ∈ (s.ballots.voteOn b).voters, s.ballots.resolveVoteDelegation v ≠ voter) ∧
    t.ballots.slashVote = update s.ballots.slashVote b (some new) ∧
    Counted (s.ballots.voteOn b) new voter (own.stake + stakeSum (delegatedTo s.ballots voter (s.records b))) approve

section Calls

variable {ctx : Context} {s : Store}

theorem recordVote_counts (b : Address) (vote : SlashVoteRecord) (totalStake : Int) (x : Ballots) :
    Yields (recordVote b vote totalStake) ctx x fun _ x' =>
      ∃ new, x'.slashVote = update x.slashVote b (some new) ∧ (∀ side, new.stakeFor side = vote.stakeFor side) ∧
        new.voters = vote.voters := by
  refine (recordVote_spec b vote totalStake x).mono ?_
  rintro _ _ (rfl | ⟨p, -, rfl⟩)
  · exact ⟨vote, rfl, fun _ => rfl, rfl⟩
  · exact ⟨{ vote with executed := true }, rfl, fun _ => rfl, rfl⟩

/-- A vote that is counted adds the carried stakes to one side, and none of the
earlier voters has delegated to this one. -/
theorem castVote_counts (voter b : Address) (approve : Bool) (vouches : List VouchRecord) (book : LoanBook)
    (x : Ballots)
    (hopen : (x.voteOn b).executed = false) :
    Yields (castVote voter b approve vouches book) ctx x fun _ x' =>
      ∃ own new, findVouch voter vouches = some own ∧
        (∀ v ∈ (x.voteOn b).voters, x.resolveVoteDelegation v ≠ voter) ∧
        x'.slashVote = update x.slashVote b (some new) ∧
        Counted (x.voteOn b) new voter (own.stake + stakeSum (delegatedTo x voter vouches)) approve := by
  unfold Ballots.voteOn at *
  unfold castVote
  simp only [yields_steps, id_eq]
  intro own hown
  refine (yields_sumI128 _ _ _ _ _).mono ?_
  rintro totalStake _ ⟨-, rfl⟩
  refine (yields_sumI128 _ _ _ _ _).mono ?_
  rintro stake _ ⟨hstake, rfl⟩
  -- the record is not executed, so the reset branch is out of reach
  simp only [openVote, hopen, Bool.false_eq_true, if_false, yields_steps, addVote, yields_i128]
  intro hnew _ _
  refine (recordVote_counts _ _ _ _).mono ?_
  rintro _ x' ⟨new, hvote, hsides, hvoters⟩
  refine ⟨own, new, hown, hnew, hvote, fun side => ?_, hvoters⟩
  rw [hsides, hstake]
  unfold SlashVoteRecord.stakeFor stakeSum
  cases side <;> cases approve <;> simp [Int.add_comm]

theorem voteSlash_counts (voter b : Address) (approve : Bool) :
    Yields (voteSlash voter b approve) ctx s fun _ t => VoteEffect s voter b approve t := by
  refine yields_voteSlash (fun _ hdefer t ht => ?_) fun _ hopen _ hvotes => ?_
  · exact ⟨fun _ => congrArg Ballots.slashVote ht, fun h => absurd h hdefer⟩
  · refine (castVote_counts _ _ _ _ _ _ ?_).mono ?_
    · rw [Ballots.voteOn]
      cases hv : s.ballots.slashVote b with
      | none => rfl
      | some v => exact hopen v hv
    · rintro _ x hcounted t rfl
      exact ⟨fun h => absurd hvotes h, fun _ => hcounted⟩

end Calls

/-! ## What a round counts -/

/-- A vote that was counted: the storage it found, who cast it, and its side. -/
structure CountedVote where
  store : Store
  voter : Address
  approve : Bool

/-- The vote on `b` an entry of the history has counted. -/
def countedVote (b : Address) (e : State × Move) : Option CountedVote :=
  match done e with
  | some (.voteSlash voter b' approve, _) =>
    if b' = b ∧ e.1.store.ballots.resolveVoteDelegation voter = voter then some ⟨e.1.store, voter, approve⟩ else none
  | _ => none

/-- The records that make up one side of the vote on `b`. -/
def countedOn (b : Address) (side : Bool) (h : List (State × Move)) : List VouchRecord :=
  ((h.filterMap (countedVote b)).filter fun x => x.approve = side).flatMap fun x => x.store.carried b x.voter

/-- The records that were counted in the vote of a delegate. -/
def countedForDelegate (b : Address) (h : List (State × Move)) : List VouchRecord :=
  (h.filterMap (countedVote b)).flatMap fun x => delegatedTo x.store.ballots x.voter (x.store.records b)

/-- The calls a round of voting is made of. -/
def Op.ofRound : Op → Bool
  | .delegateVote .. | .revokeVoteDelegation .. | .voteSlash .. => true
  | _ => false

/-- A vote on `b` is not cast by somebody who now votes for a stake that an
earlier vote has counted for its delegate. -/
def VotesAfresh (b : Address) (h : List (State × Move)) (s : State) : Op → Prop
  | .voteSlash voter b' _ =>
    b' = b → ∀ v ∈ countedForDelegate b h, s.store.ballots.resolveVoteDelegation v.voucher ≠ voter
  | _ => True

section

variable {b : Address} {h : List (State × Move)} {e : State × Move}

theorem countedOn_none (he : countedVote b e = none) (side : Bool) :
    countedOn b side (e :: h) = countedOn b side h := by
  rw [countedOn, List.filterMap_cons_none he, countedOn]

theorem countedForDelegate_none (he : countedVote b e = none) :
    countedForDelegate b (e :: h) = countedForDelegate b h := by
  rw [countedForDelegate, List.filterMap_cons_none he, countedForDelegate]

theorem countedOn_some {x : CountedVote} (he : countedVote b e = some x) (side : Bool) :
    countedOn b side (e :: h) = (if side = x.approve then x.store.carried b x.voter else []) ++ countedOn b side h := by
  rw [countedOn, List.filterMap_cons_some he, countedOn]
  by_cases hside : x.approve = side
  · rw [List.filter_cons_of_pos (by simpa using hside), List.flatMap_cons, if_pos hside.symm]
  · rw [List.filter_cons_of_neg (by simpa using hside), if_neg (Ne.symm hside), List.nil_append]

theorem countedForDelegate_some {x : CountedVote} (he : countedVote b e = some x) :
    countedForDelegate b (e :: h) =
      delegatedTo x.store.ballots x.voter (x.store.records b) ++ countedForDelegate b h := by
  rw [countedForDelegate, List.filterMap_cons_some he, List.flatMap_cons, countedForDelegate]

end

/-! ## What a vote carries -/

theorem stakeSum_append (xs ys : List VouchRecord) : stakeSum (xs ++ ys) = stakeSum xs + stakeSum ys := by
  rw [stakeSum, List.map_append, List.sum_append, stakeSum, stakeSum]

section

variable {s : Store} {b voter : Address}

theorem carried_of {own : VouchRecord} (hown : findVouch voter (s.records b) = some own) :
    s.carried b voter = own :: delegatedTo s.ballots voter (s.records b) := by
  rw [Store.carried, hown, Option.toList_some, List.singleton_append]

/-- Whoever owns a stake the vote carries has the voter as its delegate. -/
theorem resolve_of_carried (hvotes : s.ballots.resolveVoteDelegation voter = voter) {v : VouchRecord}
    (hv : v ∈ s.carried b voter) : s.ballots.resolveVoteDelegation v.voucher = voter := by
  rcases List.mem_append.1 hv with hv | hv
  · obtain ⟨-, hvoucher⟩ := findVouch_some (Option.mem_toList.1 hv)
    rw [hvoucher, hvotes]
  · exact (of_decide_eq_true (List.mem_filter.1 hv).2).2

theorem mem_of_carried {v : VouchRecord} (hv : v ∈ s.carried b voter) : v ∈ s.records b := by
  rcases List.mem_append.1 hv with hv | hv
  · exact (findVouch_some (Option.mem_toList.1 hv)).1
  · exact List.mem_of_mem_filter hv

theorem carried_nodup (hwell : WellFormed (s.records b)) : (s.carried b voter).Nodup := by
  have hrecords : (s.records b).Nodup := .of_map _ hwell.distinct
  rw [Store.carried, List.nodup_append]
  refine ⟨?_, hrecords.filter _, fun v hv u hu hvu => ?_⟩
  · cases findVouch voter (s.records b) with
    | none => exact .nil
    | some own => exact List.nodup_singleton own
  · -- the voter's own record is not a delegated one
    obtain ⟨-, hvoucher⟩ := findVouch_some (Option.mem_toList.1 hv)
    obtain ⟨hdelegated, hdelegate⟩ := of_decide_eq_true (List.mem_filter.1 hu).2
    subst hvu
    exact hdelegated (hdelegate.trans hvoucher.symm)

end

/-! ## Every round -/

/-- The vote on `b` adds up the records counted so far, each of them once. -/
structure Tallied (b : Address) (vouches : List VouchRecord) (h : List (State × Move)) (s : Store) : Prop where
  records : s.records b = vouches
  sums : ∀ side, (s.ballots.voteOn b).stakeFor side = stakeSum (countedOn b side h)
  nodup : (countedOn b true h ++ countedOn b false h).Nodup
  within : ∀ side, ∀ v ∈ countedOn b side h, v ∈ vouches
  seen : ∀ side, ∀ v ∈ countedOn b side h, v.voucher ∈ (s.ballots.voteOn b).voters ∨ v ∈ countedForDelegate b h

namespace Tallied

variable {b : Address} {vouches : List VouchRecord} {h : List (State × Move)} {s t : Store} {e : State × Move}

/-- A step that counts no vote on `b`. -/
theorem keep (hi : Tallied b vouches h s) (he : countedVote b e = none) (hrecords : t.records b = s.records b)
    (hvote : t.ballots.voteOn b = s.ballots.voteOn b) : Tallied b vouches (e :: h) t where
  records := hrecords.trans hi.records
  sums side := by rw [hvote, countedOn_none he, hi.sums]
  nodup := by rw [countedOn_none he, countedOn_none he]; exact hi.nodup
  within side := by rw [countedOn_none he]; exact hi.within side
  seen side := by rw [countedOn_none he, countedForDelegate_none he, hvote]; exact hi.seen side

/-- The step that counts a vote on `b`. -/
theorem count (hi : Tallied b vouches h s) {x : CountedVote} (he : countedVote b e = some x) (hx : x.store = s)
    (hwell : WellFormed vouches) (hrecords : t.records b = s.records b) {own : VouchRecord}
    (hown : findVouch x.voter vouches = some own) (hvotes : s.ballots.resolveVoteDelegation x.voter = x.voter)
    (hnew : ∀ v ∈ (s.ballots.voteOn b).voters, s.ballots.resolveVoteDelegation v ≠ x.voter)
    (hcounted : Counted (s.ballots.voteOn b) (t.ballots.voteOn b) x.voter
      (own.stake + stakeSum (delegatedTo s.ballots x.voter vouches)) x.approve)
    (hafresh : ∀ v ∈ countedForDelegate b h, s.ballots.resolveVoteDelegation v.voucher ≠ x.voter) :
    Tallied b vouches (e :: h) t := by
  obtain ⟨store, voter, approve⟩ := x
  subst hx
  simp only at *
  obtain rfl := hi.records
  have hcarried := carried_of hown
  have hnotCounted : ∀ side, ∀ v ∈ countedOn b side h, v ∉ store.carried b voter := by
    intro side v hv hmem
    have hresolve := resolve_of_carried hvotes hmem
    rcases hi.seen side v hv with hvoter | hdelegated
    · exact hnew _ hvoter hresolve
    · exact hafresh v hdelegated hresolve
  have hmem : ∀ side, ∀ v ∈ countedOn b side (e :: h), v ∈ store.carried b voter ∨ v ∈ countedOn b side h := by
    intro side v hv
    rw [countedOn_some he] at hv
    rcases List.mem_append.1 hv with hv | hv
    · split at hv
      · exact .inl hv
      · cases hv
    · exact .inr hv
  refine ⟨hrecords, fun side => ?_, ?_, fun side v hv => ?_, fun side v hv => ?_⟩
  · rw [hcounted.stakeFor, hi.sums, countedOn_some he, stakeSum_append]
    congr 1
    split
    · rw [hcarried]
      rfl
    · rfl
  · have hold := hi.nodup
    have hboth : (store.carried b voter).Nodup := carried_nodup hwell
    rw [List.nodup_append] at hold
    obtain ⟨htrue, hfalse, hdisjoint⟩ := hold
    have hcons (side : Bool) (hside : (countedOn b side h).Nodup) :
        (store.carried b voter ++ countedOn b side h).Nodup :=
      List.nodup_append.2 ⟨hboth, hside, fun v hv u hu hvu => hnotCounted side u hu (hvu ▸ hv)⟩
    rw [countedOn_some he, countedOn_some he, List.nodup_append]
    cases approve with
    | true =>
      refine ⟨hcons true htrue, hfalse, fun v hv u hu => ?_⟩
      rcases List.mem_append.1 hv with hv | hv
      · intro hvu
        exact hnotCounted false u hu (hvu ▸ hv)
      · exact hdisjoint v hv u hu
    | false =>
      refine ⟨htrue, hcons false hfalse, fun v hv u hu => ?_⟩
      rcases List.mem_append.1 hu with hu | hu
      · intro hvu
        exact hnotCounted true v hv (hvu ▸ hu)
      · exact hdisjoint v hv u hu
  · rcases hmem side v hv with hv | hv
    · exact mem_of_carried hv
    · exact hi.within side v hv
  · rw [hcounted.voters, countedForDelegate_some he]
    rcases hmem side v hv with hv | hv
    · rw [hcarried] at hv
      rcases List.mem_cons.1 hv with rfl | hv
      · exact .inl (List.mem_append_right _ (List.mem_singleton.2 (findVouch_some hown).2))
      · exact .inr (List.mem_append_left _ hv)
    · exact (hi.seen side v hv).imp (List.mem_append_left _) (List.mem_append_right _)

end Tallied

/-! ### The calls of a round -/

/-- A round of voting leaves the vouch set as it is. -/
theorem round_records {s : State} {c : Call} {t : Store} (hd : exec c s = .ok t) (hop : c.op.ofRound = true) :
    t.records = s.store.records := by
  have hkeeps : Keeps Store.entries (dispatch c.op) := by
    cases hc : c.op with
    | delegateVote voucher delegate => dsimp only [dispatch]; infer_instance
    | revokeVoteDelegation voucher => dsimp only [dispatch]; infer_instance
    | voteSlash voter b approve => dsimp only [dispatch]; infer_instance
    | _ => rw [hc] at hop; cases hop
  have hentries : t.entries = s.store.entries := yields_exec (hkeeps.out (s.context c) s.store) hd
  exact Vouching.vouchesOf_congr hentries

/-- Changing a delegation changes no vote. -/
theorem delegation_slashVote {s : State} {c : Call} {t : Store} (hd : exec c s = .ok t) (hop : c.op.ofRound = true)
    (hvote : ∀ voter b approve, c.op ≠ .voteSlash voter b approve) :
      t.ballots.slashVote = s.store.ballots.slashVote := by
  have hballots := ballots_of hd
  generalize t.ballots = x, c.op = op at *
  cases hballots with
  | kept _ => rfl
  | delegated => rfl
  | revoked => rfl
  | deferred _ _ => rfl
  | counted _ _ _ => exact absurd rfl (hvote _ _ _)
  | decided _ _ _ _ => exact absurd rfl (hvote _ _ _)
  | executedVote _ _ => cases hop
  | executedPending _ _ => rfl

theorem voteEffect_of {s : State} {signers : List Address} {voter b : Address} {approve : Bool} {t : Store}
    (hd : exec ⟨signers, .voteSlash voter b approve⟩ s = .ok t) : VoteEffect s.store voter b approve t := by
  refine yields_exec (Q := fun _ t => VoteEffect s.store voter b approve t) ?_ hd
  simp only [dispatch, discard, yields_steps]
  exact voteSlash_counts voter b approve

/-- A call of `vote_slash` counts a vote on `b` or leaves that vote as it is. -/
theorem voteSlash_cases {s : State} {signers : List Address} {voter b' : Address} {approve : Bool} {t : Store}
    (hd : exec ⟨signers, .voteSlash voter b' approve⟩ s = .ok t) (b : Address) :
    (countedVote b (s, .call ⟨signers, .voteSlash voter b' approve⟩) = none ∧
      t.ballots.voteOn b = s.store.ballots.voteOn b) ∨
    b' = b ∧ s.store.ballots.resolveVoteDelegation voter = voter ∧
      countedVote b (s, .call ⟨signers, .voteSlash voter b' approve⟩) = some ⟨s.store, voter, approve⟩ ∧
      ∃ own, findVouch voter (s.store.records b) = some own ∧
        (∀ v ∈ (s.store.ballots.voteOn b).voters, s.store.ballots.resolveVoteDelegation v ≠ voter) ∧
        Counted (s.store.ballots.voteOn b) (t.ballots.voteOn b) voter
          (own.stake + stakeSum (delegatedTo s.store.ballots voter (s.store.records b))) approve := by
  obtain ⟨hdeferred, hcounted⟩ := voteEffect_of hd
  rw [countedVote, done_ok hd]
  by_cases hvotes : s.store.ballots.resolveVoteDelegation voter = voter
  · obtain ⟨own, new, hown, hnew, hslash, hcounted⟩ := hcounted hvotes
    by_cases hb : b' = b
    · subst hb
      have hvoteOn : t.ballots.voteOn b' = new := by rw [Ballots.voteOn, hslash, update_self, Option.getD_some]
      exact .inr ⟨rfl, hvotes, if_pos ⟨rfl, hvotes⟩, own, hown, hnew, hvoteOn ▸ hcounted⟩
    · refine .inl ⟨if_neg fun h => hb h.1, ?_⟩
      rw [Ballots.voteOn, hslash, update_of_ne (Ne.symm hb), Ballots.voteOn]
  · refine .inl ⟨if_neg fun h => hvotes h.2, ?_⟩
    rw [Ballots.voteOn, hdeferred hvotes, Ballots.voteOn]

theorem countedVote_other {s : State} {c : Call} {t : Store} (hd : exec c s = .ok t)
    (hop : ∀ voter b approve, c.op ≠ .voteSlash voter b approve) (b : Address) :
    countedVote b (s, .call c) = none := by
  rw [countedVote, done_ok hd]
  split
  case h_1 voter b' approve _ heq => exact absurd (Prod.mk.inj (Option.some.inj heq)).1 (hop voter b' approve)
  case h_2 => rfl

/-- A call of the round keeps the tally, if it votes afresh. -/
theorem Tallied.call {b : Address} {vouches : List VouchRecord} {h : List (State × Move)} {s : State} {c : Call}
    {t : Store}
    (hi : Tallied b vouches h s.store) (hwell : WellFormed vouches) (hd : exec c s = .ok t) (hop : c.op.ofRound = true)
    (hafresh : VotesAfresh b h s c.op) : Tallied b vouches ((s, .call c) :: h) t := by
  have hrecords : t.records b = s.store.records b := congrFun (round_records hd hop) b
  by_cases hvote : ∃ voter b' approve, c.op = .voteSlash voter b' approve
  · obtain ⟨signers, op⟩ := c
    obtain ⟨voter, b', approve, rfl⟩ := hvote
    rcases voteSlash_cases hd b with ⟨hnone, hkept⟩ | ⟨rfl, hvotes, hsome, own, hown, hnew, hcounted⟩
    · exact hi.keep hnone hrecords hkept
    · rw [hi.records] at hown hcounted
      exact hi.count hsome rfl hwell hrecords hown hvotes hnew hcounted (hafresh rfl)
  · have hother : ∀ voter b' approve, c.op ≠ .voteSlash voter b' approve :=
      fun voter b' approve h => hvote ⟨voter, b', approve, h⟩
    refine hi.keep (countedVote_other hd hother b) hrecords ?_
    rw [Ballots.voteOn, delegation_slashVote hd hop hother, Ballots.voteOn]

theorem tallied_run {s₀ h s} (hr : Reachable s₀) (b : Address) (hfresh : s₀.store.ballots.slashVote b = none)
    (hrun : Run Step s₀ h s) (hok : Throughout (fun h s m => WhenDone (fun _ op => op.ofRound = true) s m ∧
      WhenDone (VotesAfresh b h) s m) h) : Tallied b (s₀.store.records b) h s.store := by
  refine Run.inv_throughout _ (fun h s => Tallied b (s₀.store.records b) h s.store) ?_ ?_ hrun hok
  · have hopen : s₀.store.ballots.voteOn b = .fresh := by rw [Ballots.voteOn, hfresh, Option.getD_none]
    refine ⟨rfl, fun side => ?_, .nil, fun _ v hv => ?_, fun _ v hv => ?_⟩
    · rw [hopen]
      cases side <;> rfl
    · cases hv
    · cases hv
  · rintro h s m s' - hi ⟨hround, hafresh⟩ hst
    cases hst with
    | done hd => exact hi.call (hr.wellFormed b) hd (hround ⟨_, hd⟩) (hafresh ⟨_, hd⟩)
    | refused he => exact hi.keep (by rw [countedVote, done_error he]) rfl rfl
    | elsewhere _ _ => exact hi.keep rfl rfl rfl

/-- In a round of voting from any state the contract can be in, with the vote on
`b` not begun, the two sides of the vote add up records of `b`, each of them
counted once and on one side, and together they stay within the total stake, as
long as every vote on `b` is afresh. -/
theorem each_stake_votes_once {s₀ h s} (hr : Reachable s₀) (b : Address)
    (hfresh : s₀.store.ballots.slashVote b = none) (hrun : Run Step s₀ h s)
    (hround : Along (WhenDone fun _ op => op.ofRound = true) h)
      (hok : Throughout (fun h => WhenDone (VotesAfresh b h)) h) :
    s.store.records b = s₀.store.records b ∧
      (s.store.ballots.voteOn b).approveStake = stakeSum (countedOn b true h) ∧
      (s.store.ballots.voteOn b).rejectStake = stakeSum (countedOn b false h) ∧
      (countedOn b true h ++ countedOn b false h).Nodup ∧
      (countedOn b true h ++ countedOn b false h) ⊆ s.store.records b ∧
      (s.store.ballots.voteOn b).approveStake + (s.store.ballots.voteOn b).rejectStake ≤
        stakeSum (s.store.records b) := by
  have hi := tallied_run hr b hfresh hrun (hround.throughout.and hok)
  have hwithin : (countedOn b true h ++ countedOn b false h) ⊆ s₀.store.records b := by
    intro v hv
    rcases List.mem_append.1 hv with hv | hv
    · exact hi.within true v hv
    · exact hi.within false v hv
  have happrove : (s.store.ballots.voteOn b).approveStake = stakeSum (countedOn b true h) := hi.sums true
  have hreject : (s.store.ballots.voteOn b).rejectStake = stakeSum (countedOn b false h) := hi.sums false
  refine ⟨hi.records, happrove, hreject, hi.nodup, hi.records.symm ▸ hwithin, ?_⟩
  rw [happrove, hreject, ← stakeSum_append, hi.records]
  obtain ⟨counted, hperm, hsub⟩ := List.subperm_of_subset hi.nodup hwithin
  calc stakeSum (countedOn b true h ++ countedOn b false h)
      = stakeSum counted := (hperm.map _).sum_eq.symm
    _ ≤ stakeSum (s₀.store.records b) := (hsub.map _).sum_le_sum fun stake hstake => by
        obtain ⟨v, hv, rfl⟩ := List.mem_map.1 hstake
        exact ((hr.wellFormed b).staked v hv).le

/-- Accounts 2 and 3 vouch for account 10, which is issued a loan. -/
def jointLoan : List Act :=
  [.call [2] (.vouch 2 10 1000000 100 0), .call [3] (.vouch 3 10 1000000 100 0),
    .call [1] (.createLoanPool [1] [10] [500000])]

/-- Account 2 votes for both of them. -/
def delegatedVote : List Act := [.call [3] (.delegateVote 3 2), .call [2] (.voteSlash 2 10 false)]

/-- Both stakes are on the rejecting side, and the vote stays within their sum. -/
theorem each_stake_votes_once_delegated :
    let s₀ := start.play jointLoan
    let s := s₀.play delegatedVote
    (s.store.ballots.voteOn 10).rejectStake = 2000000 ∧
      (s.store.ballots.voteOn 10).approveStake + (s.store.ballots.voteOn 10).rejectStake ≤
        stakeSum (s.store.records 10) := by
  intro s₀ s
  have hvoted : (s.store.ballots.voteOn 10).rejectStake = 2000000 := by decide +kernel
  have hfresh : s₀.store.ballots.slashVote 10 = none := by decide +kernel
  have hcounted : countedForDelegate 10 [(s₀, .call ⟨[3], .delegateVote 3 2⟩)] = [] := by
    have he : countedVote 10 (s₀, .call ⟨[3], .delegateVote 3 2⟩) = none := by
      have hd := exec_after (c := ⟨[3], .delegateVote 3 2⟩) (s := s₀) (by decide +kernel)
      rw [countedVote, done_ok hd]
    rw [countedForDelegate, List.filterMap_cons_none he, List.filterMap_nil, List.flatMap_nil]
  have hround : Along (WhenDone fun _ op => op.ofRound = true) (s₀.trace [] delegatedVote) :=
    List.forall_mem_cons.2 ⟨fun _ => rfl, List.forall_mem_cons.2 ⟨fun _ => rfl, List.forall_mem_nil _⟩⟩
  have hafresh : Throughout (fun h => WhenDone (VotesAfresh 10 h)) (s₀.trace [] delegatedVote) := by
    refine ⟨⟨trivial, fun _ => trivial⟩, fun _ _ v hv => ?_⟩
    change v ∈ countedForDelegate 10 [(s₀, .call ⟨[3], .delegateVote 3 2⟩)] at hv
    rw [hcounted] at hv
    cases hv
  exact ⟨hvoted, (each_stake_votes_once (Reachable.script sampleWorld sampleBank jointLoan) 10 hfresh
    (run_play .nil delegatedVote) hround hafresh).2.2.2.2.2⟩

/-- Account 2 has voted for both; account 3 then takes its delegation back and
votes itself, on the other side. -/
def revokedVote : List Act :=
  delegatedVote ++ [.call [3] (.revokeVoteDelegation 3), .call [3] (.voteSlash 3 10 true)]

/-- The stake of account 3 is on both sides, and the vote exceeds the total stake. -/
theorem delegator_votes_again :
    ∃ s₀ h s, Reachable s₀ ∧ s₀.store.ballots.slashVote 10 = none ∧ Run Step s₀ h s ∧
      Along (WhenDone fun _ op => op.ofRound = true) h ∧ s.store.records 10 = s₀.store.records 10 ∧
      (∃ v, v ∈ countedOn 10 true h ∧ v ∈ countedOn 10 false h) ∧
      stakeSum (s.store.records 10) <
        (s.store.ballots.voteOn 10).approveStake + (s.store.ballots.voteOn 10).rejectStake := by
  refine ⟨start.play jointLoan, (start.play jointLoan).trace [] revokedVote, (start.play jointLoan).play revokedVote,
    Reachable.script sampleWorld sampleBank jointLoan, by decide +kernel, run_play .nil revokedVote, ?_,
    by decide +kernel, ?_, by decide +kernel⟩
  · exact List.forall_mem_cons.2
      ⟨fun _ => rfl, List.forall_mem_cons.2 ⟨fun _ => rfl, List.forall_mem_cons.2 ⟨fun _ => rfl,
      List.forall_mem_cons.2 ⟨fun _ => rfl, List.forall_mem_nil _⟩⟩⟩⟩
  · have hboth : ∃ v ∈ countedOn 10 true ((start.play jointLoan).trace [] revokedVote),
        v ∈ countedOn 10 false ((start.play jointLoan).trace [] revokedVote) := by decide +kernel
    obtain ⟨v, hv⟩ := hboth
    exact ⟨v, hv⟩

end QuorumCredit
