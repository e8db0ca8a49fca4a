import QuorumCredit.GovSupply
/-!
# The votes of the governance token

A vote on a proposal counts the tokens its effective voter holds at that moment.
The proposal remembers who voted, not whose tokens were counted, and nothing
keeps counted tokens where they are. The votes stay within the supply as long as
every vote counts a holder not counted before, while the holders counted before
still have the tokens that were counted.
-/

open Host Function

namespace QuorumCredit

/-- A state of the governance token, with the call or event that comes next. -/
abbrev GovEntry := Situated World GovStore × Event World (List Address) GovStore GovOp

/-- Whose tokens the entry counts on the proposal, if it is a vote that goes through. -/
def daoVoter (id : Nat) (e : GovEntry) : Option Address :=
  match govToken.done e.1 e.2 with
  | some (.voteOnProposal voter id' _, _) => if id' = id then some (e.1.store.gov.resolveDelegate voter) else none
  | _ => none

/-- The holders counted on the proposal in a history, newest first. -/
def daoVoters (id : Nat) (h : List GovEntry) : List Address := h.filterMap (daoVoter id)

/-- A vote counts a holder not counted before on the proposal, and the holders
counted before still have, together, the tokens that were counted. -/
def CountsAfresh (h : List GovEntry) (s : Situated World GovStore) : GovOp → Prop
  | .voteOnProposal voter id _ =>
    s.store.gov.resolveDelegate voter ∉ daoVoters id h ∧
      s.store.gov.votesOn id ≤ ((daoVoters id h).map s.store.gov.held).sum
  | _ => True

instance (h : List GovEntry) (s : Situated World GovStore) (op : GovOp) : Decidable (CountsAfresh h s op) := by
  unfold CountsAfresh
  split
  · infer_instance
  · infer_instance

variable {s : Situated World GovStore}

theorem daoVoters_idle {e} (he : govToken.done s e = none) (id : Nat) (h : List GovEntry) :
    daoVoters id ((s, e) :: h) = daoVoters id h := by
  simp [daoVoters, daoVoter, he]

theorem daoVoters_vote {signers voter id voteFor t}
    (he : govToken.exec s signers (.voteOnProposal voter id voteFor) = some t) (id' : Nat) (h : List GovEntry) :
    daoVoters id' ((s, .call signers (.voteOnProposal voter id voteFor)) :: h) =
      if id = id' then s.store.gov.resolveDelegate voter :: daoVoters id' h else daoVoters id' h := by
  by_cases hid : id = id'
  · subst hid
    simp [daoVoters, daoVoter, Component.done_call he]
  · simp [daoVoters, daoVoter, Component.done_call he, hid]

/-- A call that is no vote counts nobody. -/
theorem daoVoters_other {signers : List Address} {op : GovOp}
    (hop : ∀ voter id voteFor, op ≠ .voteOnProposal voter id voteFor) (id : Nat) (h : List GovEntry) :
    daoVoters id ((s, .call signers op) :: h) = daoVoters id h := by
  have hnone : daoVoter id (s, .call signers op) = none := by
    unfold daoVoter
    split
    case h_1 voter id' voteFor t he =>
      obtain ⟨_, hcall, -⟩ := Component.of_done he
      cases hcall
      exact absurd rfl (hop _ _ _)
    case h_2 => rfl
  simp [daoVoters, hnone]

namespace GovToken

theorem votesOn_update {g g' : GovToken} {id : Nat} {p : DaoProposal} (h : g'.proposal = update g.proposal id (some p))
    (id' : Nat) : g'.votesOn id' = if id' = id then p.votesFor + p.votesAgainst else g.votesOn id' := by
  by_cases hid : id' = id
  · subst hid
    simp [votesOn, h]
  · simp [votesOn, h, hid]

theorem votesOn_some {g : GovToken} {id : Nat} {p : DaoProposal} (h : g.proposal id = some p) :
    g.votesOn id = p.votesFor + p.votesAgainst := by
  simp [votesOn, h]

end GovToken

/-- Each holder is counted once on a proposal, and the votes stay within the supply. -/
structure VotesBacked (h : List GovEntry) (g : GovToken) : Prop where
  once : ∀ id, (daoVoters id h).Nodup
  within : ∀ id, g.votesOn id ≤ g.metrics.totalSupply

/-- What keeps the votes and does not lower the supply. -/
theorem VotesBacked.keep {h h' : List GovEntry} {g g' : GovToken} (hi : VotesBacked h g)
    (hvoters : ∀ id, daoVoters id h' = daoVoters id h) (hvotes : ∀ id, g'.votesOn id ≤ max (g.votesOn id) 0)
    (hsupply : g.metrics.totalSupply ≤ g'.metrics.totalSupply) (hpos : 0 ≤ g.metrics.totalSupply) :
      VotesBacked h' g' where
  once id := by
    rw [hvoters]
    exact hi.once id
  within id := by
    have h₁ := hi.within id
    have h₂ := hvotes id
    omega

theorem Conserved.supply_nonneg {g : GovToken} (h : Conserved g) : 0 ≤ g.metrics.totalSupply := by
  rw [← h.supply]
  exact finsum_nonneg h.nonneg

/-- The tokens counted so far and those of a holder not counted yet are different tokens. -/
theorem VotesBacked.vote {h h' : List GovEntry} {g g' : GovToken} {id : Nat} {holder : Address} {p p' : DaoProposal}
    (hi : VotesBacked h g) (hc : Conserved g) (hnew : holder ∉ daoVoters id h)
    (hbacked : g.votesOn id ≤ ((daoVoters id h).map g.held).sum)
    (hvoters : ∀ id', daoVoters id' h' = if id = id' then holder :: daoVoters id' h else daoVoters id' h)
    (hp : g.proposal id = some p)
    (hvotes : p'.votesFor + p'.votesAgainst = p.votesFor + p.votesAgainst + g.held holder)
    (hproposal : g'.proposal = update g.proposal id (some p'))
      (hsupply : g'.metrics.totalSupply = g.metrics.totalSupply) :
    VotesBacked h' g' where
  once id' := by
    rw [hvoters]
    split
    case isTrue hid =>
      subst hid
      exact List.nodup_cons.2 ⟨hnew, hi.once id⟩
    case isFalse => exact hi.once id'
  within id' := by
    rw [GovToken.votesOn_update hproposal, hsupply]
    split
    case isTrue hid =>
      have hnodup : (holder :: daoVoters id h).Nodup := List.nodup_cons.2 ⟨hnew, hi.once id⟩
      have hle := sum_map_le_finsum hc.finite hc.nonneg hnodup
      rw [hc.supply, List.map_cons, List.sum_cons] at hle
      rw [GovToken.votesOn_some hp] at hbacked
      omega
    case isFalse => exact hi.within id'

theorem GovEffect.votesBacked {signers : List Address} {op : GovOp} {t : GovStore} {h : List GovEntry}
    (hexec : govToken.exec s signers op = some t) (hc : Conserved s.store.gov) (hi : VotesBacked h s.store.gov)
    (hok : CountsAfresh h s op) : VotesBacked ((s, .call signers op) :: h) t.gov := by
  have he := govEffect_of hexec
  have hpos := hc.supply_nonneg
  cases he with
  | minted hamount _ hsupply hproposal =>
    refine hi.keep (daoVoters_other (by simp) · h) (fun id => ?_) (by omega) hpos
    simp only [GovToken.votesOn, hproposal]
    exact le_max_left _ _
  | transferred _ _ _ hmetrics hproposal =>
    refine hi.keep (daoVoters_other (by simp) · h) (fun id => ?_) (by rw [hmetrics]) hpos
    simp only [GovToken.votesOn, hproposal]
    exact le_max_left _ _
  | delegated _ hmetrics hproposal =>
    refine hi.keep (daoVoters_other (by simp) · h) (fun id => ?_) (by rw [hmetrics]) hpos
    simp only [GovToken.votesOn, hproposal]
    exact le_max_left _ _
  | proposed hfor hagainst _ hsupply hproposal =>
    refine hi.keep (daoVoters_other (by simp) · h) (fun id => ?_) (by rw [hsupply]) hpos
    rw [GovToken.votesOn_update hproposal, hfor, hagainst]
    split
    · exact le_max_right _ _
    · exact le_max_left _ _
  | voted hp hvotes _ hsupply hproposal =>
    exact hi.vote hc hok.1 hok.2 (daoVoters_vote hexec · h) hp hvotes hproposal hsupply
  | finalized hp hvotes _ hmetrics hproposal =>
    refine hi.keep (daoVoters_other (by simp) · h) (fun id => ?_) (by rw [hmetrics]) hpos
    rw [GovToken.votesOn_update hproposal]
    split
    case isTrue hid =>
      rw [hid, GovToken.votesOn_some hp, hvotes]
      exact le_max_left _ _
    case isFalse => exact le_max_left _ _

/-- In every run in which each vote counts a holder not counted before on the
proposal, while the holders counted before still have the tokens counted, the
votes on a proposal never exceed the supply. -/
theorem votes_within_supply {world : World} {access : Access} {h s}
    (hr : Run govToken.Step (govStart world access) h s)
    (hok : Throughout (fun h => govToken.WhenDone (CountsAfresh h)) h) {id : Nat} {p : DaoProposal}
    (hp : s.store.gov.proposal id = some p) : p.votesFor + p.votesAgainst ≤ s.store.gov.metrics.totalSupply := by
  have hbacked : VotesBacked h s.store.gov := by
    refine Component.inv_throughout (I := fun h s => VotesBacked h s.store.gov) ?_ ?_ ?_ hr hok
    · exact ⟨fun _ => List.nodup_nil, fun _ => le_refl 0⟩
    · intro h s signers op t hrun hi hafresh hexec
      exact GovEffect.votesBacked hexec (conserved_run hrun) hi hafresh
    · intro h s e s' hi hidle hsame
      have hgov : s'.store.gov = s.store.gov := by
        rcases hsame with rfl | hdrift
        · rfl
        · exact hdrift.2
      rw [hgov]
      exact ⟨fun id => by rw [daoVoters_idle hidle]; exact hi.once id, hi.within⟩
  have hle := hbacked.within id
  rwa [GovToken.votesOn_some hp] at hle

/-- Accounts 2, 3 and 4 hold the supply; what moves in the vote is not counted yet, or stays among the counted. -/
def countedOnce : List (List Address × GovOp) :=
  [([1], .mintGovTokens [1] 2 300), ([1], .mintGovTokens [1] 3 9700), ([3], .createDaoProposal 3 "lower the quorum"),
    ([2], .voteOnProposal 2 0 true), ([3], .transferGovTokens 3 4 200), ([4], .voteOnProposal 4 0 false),
    ([4], .transferGovTokens 4 2 100), ([3], .voteOnProposal 3 0 true)]

theorem votes_within_supply_counted :
    ∃ h s p, Run govToken.Step (govStart sampleWorld .open) h s ∧ s.store.gov.proposal 0 = some p ∧ p.votesFor = 9800 ∧
      p.votesAgainst = 200 ∧ p.votesFor + p.votesAgainst ≤ s.store.gov.metrics.totalSupply := by
  have hr := Component.run_play govToken (.nil : Run govToken.Step (govStart sampleWorld .open) [] _) countedOnce
  have hp : (govToken.play (govStart sampleWorld .open) countedOnce).store.gov.proposal 0 =
      some ⟨0, 3, "lower the quorum", 9800, 200, [2, 4, 3], .passed, 1000000, 1604800, 1777600⟩ := by decide +kernel
  exact ⟨_, _, _, hr, hp, rfl, rfl, votes_within_supply hr (by decide +kernel) hp⟩

/-! ## Tokens counted twice -/

/-- The calls that add to the supply. -/
def GovOp.mints : GovOp → Bool
  | .mintGovTokens .. => true
  | _ => false

/-- Account 2 holds 9 % of the supply, account 3 the rest, and 3 has made a proposal. -/
def proposalMade : List (List Address × GovOp) :=
  [([1], .mintGovTokens [1] 2 90), ([1], .mintGovTokens [1] 3 910), ([3], .createDaoProposal 3 "lower the quorum")]

/-- 2 votes, hands its tokens to 3, and 3 votes with them again. -/
def votedTwice : List (List Address × GovOp) :=
  [([2], .voteOnProposal 2 0 true), ([2], .transferGovTokens 2 3 90), ([3], .voteOnProposal 3 0 true)]

/-- The votes on a proposal exceed the supply with no minting since it was made. -/
theorem votes_exceed_supply :
    ¬ ∀ world access h s h' s', Run govToken.Step (govStart world access) h s → Run govToken.Step s h' s' →
      Along (govToken.WhenDone fun _ op => op.mints = false) h' →
        ∀ id p p', s.store.gov.proposal id = some p → p.votesFor + p.votesAgainst = 0 →
          s'.store.gov.proposal id = some p' → p'.votesFor + p'.votesAgainst ≤ s'.store.gov.metrics.totalSupply := by
  intro hclaim
  have hr := Component.run_play govToken (.nil : Run govToken.Step (govStart sampleWorld .open) [] _) proposalMade
  have hr' := Component.run_play govToken
    (.nil : Run govToken.Step (govToken.play (govStart sampleWorld .open) proposalMade) [] _) votedTwice
  have hp : (govToken.play (govStart sampleWorld .open) proposalMade).store.gov.proposal 0 =
      some ⟨0, 3, "lower the quorum", 0, 0, [], .active, 1000000, 1604800, 1777600⟩ := by decide +kernel
  have hp' : (govToken.play (govToken.play (govStart sampleWorld .open) proposalMade) votedTwice).store.gov.proposal 0 =
      some ⟨0, 3, "lower the quorum", 1090, 0, [2, 3], .passed, 1000000, 1604800, 1777600⟩ := by decide +kernel
  have hsupply : (govToken.play (govToken.play (govStart sampleWorld .open) proposalMade)
      votedTwice).store.gov.metrics.totalSupply = 1000 := by decide +kernel
  have hle := hclaim _ _ _ _ _ _ hr hr' (by decide +kernel) 0 _ _ hp rfl hp'
  rw [hsupply] at hle
  exact absurd hle (by decide)

end QuorumCredit
