import QuorumCredit.GovToken
/-!
# The supply of the governance token

`GovEffect` lists what a call does to balances, supply, delegations and
proposals. Minting adds to the supply what it adds to a balance, a transfer moves
tokens also where sender and receiver are one, and nothing else changes a
balance.
-/

open Host Function

namespace QuorumCredit

namespace GovToken

variable (g : GovToken)

theorem held_saveBalance (a : Address) (bal : GovTokenBalance) :
    (g.saveBalance a bal).held = update g.held a bal.balance := by
  funext x
  by_cases hx : x = a
  · subst hx
    simp [held, loadBalance, saveBalance]
  · simp [held, loadBalance, saveBalance, hx]

/-- Storing an account's record with its balance as it is. -/
theorem held_saveBalance_same {a : Address} {bal : GovTokenBalance} (h : bal.balance = g.held a) :
    (g.saveBalance a bal).held = g.held := by
  rw [held_saveBalance, h, update_eq_self]

/-- The tokens after `amount` has moved from `src` to `dst`. -/
def moved (held : Address → Int) (src dst : Address) (amount : Int) : Address → Int :=
  let sent := update held src (held src - amount)
  update sent dst (sent dst + amount)

/-- The votes a proposal has so far. -/
def votesOn (id : Nat) : Int :=
  match g.proposal id with
  | some p => p.votesFor + p.votesAgainst
  | none => 0

end GovToken

/-- What a call that goes through found and did. -/
inductive GovEffect (g g' : GovToken) : GovOp → Prop
  | minted {signers recipient amount} : 0 < amount →
      g'.held = update g.held recipient (g.held recipient + amount) →
      g'.metrics.totalSupply = g.metrics.totalSupply + amount →
      g'.proposal = g.proposal → g'.delegation = g.delegation →
      GovEffect g g' (.mintGovTokens signers recipient amount)
  | transferred {src dst amount} : 0 < amount → amount ≤ g.held src → g'.held = GovToken.moved g.held src dst amount →
      g'.metrics = g.metrics → g'.proposal = g.proposal → g'.delegation = g.delegation →
      GovEffect g g' (.transferGovTokens src dst amount)
  | delegated {delegator delegate} : g'.held = g.held → g'.metrics = g.metrics → g'.proposal = g.proposal →
      GovEffect g g' (.delegateGovVote delegator delegate)
  | proposed {proposer description id} {p : DaoProposal} : p.votesFor = 0 → p.votesAgainst = 0 →
      g'.held = g.held → g'.metrics.totalSupply = g.metrics.totalSupply →
      g'.proposal = update g.proposal id (some p) → g'.delegation = g.delegation →
      GovEffect g g' (.createDaoProposal proposer description)
  | voted {voter id voteFor} {p p' : DaoProposal} : g.proposal id = some p →
      p'.votesFor + p'.votesAgainst = p.votesFor + p.votesAgainst + g.held (g.resolveDelegate voter) →
      g'.held = g.held → g'.metrics.totalSupply = g.metrics.totalSupply →
      g'.proposal = update g.proposal id (some p') → g'.delegation = g.delegation →
      GovEffect g g' (.voteOnProposal voter id voteFor)
  | finalized {id} {p p' : DaoProposal} : g.proposal id = some p →
      p'.votesFor + p'.votesAgainst = p.votesFor + p.votesAgainst →
      g'.held = g.held → g'.metrics = g.metrics → g'.proposal = update g.proposal id (some p') →
      g'.delegation = g.delegation → GovEffect g g' (.finalizeDaoProposal id)

section

variable {ctx : Context}

theorem yields_receiveGov (holder : Address) (amount : Int) (g : GovToken) :
    Yields (receiveGov holder amount) ctx g fun _ g' =>
      g'.held = update g.held holder (g.held holder + amount) ∧ g'.metrics = g.metrics ∧ g'.proposal = g.proposal ∧
        g'.delegation = g.delegation := by
  simp only [receiveGov, onGov, yields_steps, yields_i128]
  intro _
  exact ⟨GovToken.held_saveBalance g holder _, rfl, rfl, rfl⟩

theorem yields_quorumVotes (metrics : GovParticipationMetrics) (p : DaoProposal) (g : GovToken) :
    Yields (quorumVotes metrics p) ctx g fun r g' => g' = g ∧ r.2 = p.votesFor + p.votesAgainst := by
  simp only [quorumVotes, yields_steps, yields_i128]
  intro _ _
  exact ⟨trivial, trivial⟩

/-- Finalising changes the status only. -/
theorem yields_finalizeProposalStatus (p : DaoProposal) (g : GovToken) :
    Yields (finalizeProposalStatus p) ctx g fun p' g' => g' = g ∧ ∃ status, p' = { p with status } := by
  simp only [finalizeProposalStatus, yields_steps]
  refine (yields_quorumVotes _ p g).mono ?_
  rintro ⟨quorum, total⟩ _ ⟨rfl, -⟩
  simp only
  exact ⟨trivial, _, rfl⟩

theorem yields_addDaoVote (p : DaoProposal) (voter : Address) (voteFor : Bool) (weight : Int) (g : GovToken) :
    Yields (addDaoVote p voter voteFor weight) ctx g fun p' g' =>
      g' = g ∧ p'.votesFor + p'.votesAgainst = p.votesFor + p.votesAgainst + weight := by
  simp only [addDaoVote, yields_steps, yields_i128]
  intro _ _
  refine ⟨trivial, ?_⟩
  cases voteFor
  · simp [add_assoc]
  · simp [add_right_comm]

theorem yields_countDaoVote (voter : Address) (metrics : GovParticipationMetrics) (g : GovToken) :
    Yields (countDaoVote voter metrics) ctx g fun _ g' =>
      g'.held = g.held ∧ g'.metrics.totalSupply = metrics.totalSupply ∧ g'.proposal = g.proposal ∧
        g'.delegation = g.delegation := by
  simp only [countDaoVote, onGov, yields_steps, yields_u64, yields_u32]
  intro _ _
  exact ⟨GovToken.held_saveBalance_same _ rfl, rfl, rfl, rfl⟩

theorem yields_castDaoVote (voter : Address) (id : Nat) (voteFor : Bool) (g : GovToken) :
    Yields (castDaoVote voter id voteFor) ctx g fun _ g' => GovEffect g g' (.voteOnProposal voter id voteFor) := by
  simp only [castDaoVote, onGov, yields_steps, yields_ite]
  intro p hp _
  constructor
  · -- an expired proposal takes no vote
    intro _
    refine (yields_finalizeProposalStatus p g).mono ?_
    rintro _ _ _
    simp
  · intro _ _ _
    refine (yields_addDaoVote p voter voteFor _ g).mono ?_
    rintro voted _ ⟨rfl, hvotes⟩
    refine (yields_quorumVotes _ voted _).mono ?_
    rintro ⟨quorum, total⟩ _ ⟨rfl, -⟩
    have hcount (g : GovToken) (hg : g.proposal id = some p)
        (hvotes : voted.votesFor + voted.votesAgainst = p.votesFor + p.votesAgainst + g.held (g.resolveDelegate voter))
        (p' : DaoProposal) (hp' : p'.votesFor + p'.votesAgainst = voted.votesFor + voted.votesAgainst) :
        Yields (countDaoVote voter g.metrics) ctx (g.setProposal id p') fun _ g' =>
          GovEffect g g' (.voteOnProposal voter id voteFor) := by
      refine (yields_countDaoVote voter _ _).mono ?_
      rintro _ g' ⟨hheld, hsupply, hproposal, hdelegation⟩
      exact .voted hg (hp'.trans hvotes) hheld hsupply hproposal hdelegation
    simp only
    constructor
    · intro _
      refine (yields_finalizeProposalStatus voted _).mono ?_
      rintro _ _ ⟨rfl, status, rfl⟩
      exact hcount _ hp hvotes _ rfl
    · intro _
      exact hcount _ hp hvotes voted rfl

theorem yields_govOp (op : GovOp) (s : GovStore) :
    Yields (op.run) ctx s fun _ t => GovEffect s.gov t.gov op := by
  cases op with
  | mintGovTokens signers recipient amount =>
    simp only [GovOp.run, mintGovTokens, onGov, yields_steps, yields_i128, yields_parts]
    refine (yields_true _ _ _).mono fun _ a _ => ?_
    refine (yields_requireAdminApproval signers).mono ?_
    rintro _ _ rfl hpos
    refine (yields_receiveGov recipient amount _).mono ?_
    rintro _ g ⟨hheld, hmetrics, hproposal, hdelegation⟩ _
    refine .minted hpos hheld ?_ hproposal hdelegation
    exact congrArg (fun m : GovParticipationMetrics => m.totalSupply + amount) hmetrics
  | transferGovTokens src dst amount =>
    simp only [GovOp.run, transferGovTokens, onGov, yields_steps, yields_requireAuth, yields_i128, yields_parts]
    refine (yields_true _ _ _).mono fun _ a _ => ?_
    intro _ hpos hfunds _
    refine (yields_receiveGov dst amount _).mono ?_
    rintro _ g ⟨hheld, hmetrics, hproposal, hdelegation⟩
    refine .transferred hpos hfunds (hheld.trans ?_) hmetrics hproposal hdelegation
    rw [Part.get_set, GovToken.held_saveBalance]
    rfl
  | delegateGovVote delegator delegate =>
    simp only [GovOp.run, delegateGovVote, onGov, yields_steps, yields_requireAuth, yields_parts]
    refine (yields_true _ _ _).mono fun _ a _ => ?_
    intro _ _
    exact .delegated rfl rfl rfl
  | createDaoProposal proposer description =>
    simp only [GovOp.run, discard, createDaoProposal, nextProposalId, onGov, yields_steps, yields_requireAuth,
      yields_i128, yields_u64, yields_parts]
    refine (yields_true _ _ _).mono fun _ a _ => ?_
    intro _ _ _ _ _ _ _ _
    exact .proposed rfl rfl rfl rfl rfl rfl
  | voteOnProposal voter id voteFor =>
    simp only [GovOp.run, voteOnProposal, yields_bind, yields_requireAuth, yields_parts]
    refine (yields_true _ _ _).mono fun _ a _ => ?_
    intro _
    exact yields_castDaoVote voter id voteFor _
  | finalizeDaoProposal id =>
    simp only [GovOp.run, discard, finalizeDaoProposal, onGov, yields_steps, yields_parts]
    intro p hp _ _
    refine (yields_finalizeProposalStatus p s.gov).mono ?_
    rintro _ _ ⟨rfl, status, rfl⟩
    exact @GovEffect.finalized _ _ id p { p with status } hp rfl rfl rfl rfl rfl

end

theorem govEffect_of {s : Situated World GovStore} {signers : List Address} {op : GovOp} {t : GovStore}
    (h : govToken.exec s signers op = some t) : GovEffect s.store.gov t.gov op :=
  Component.exec_yields (Q := fun t => GovEffect s.store.gov t.gov op) (yields_govOp op s.store) h

/-! ## The supply -/

/-- The balances add up to the supply, and none is negative. -/
structure Conserved (g : GovToken) : Prop where
  finite : (support g.held).Finite
  supply : ∑ᶠ a, g.held a = g.metrics.totalSupply
  nonneg : ∀ a, 0 ≤ g.held a

theorem conserved_empty : Conserved .empty where
  finite := by simp [GovToken.held, GovToken.loadBalance, GovToken.empty, support]
  supply := by simp [GovToken.held, GovToken.loadBalance, GovToken.empty]
  nonneg _ := le_refl 0

theorem Conserved.congr {g g' : GovToken} (h : Conserved g) (hheld : g'.held = g.held)
    (hsupply : g'.metrics.totalSupply = g.metrics.totalSupply) : Conserved g' where
  finite := hheld ▸ h.finite
  supply := by rw [hheld, hsupply, h.supply]
  nonneg := hheld ▸ h.nonneg

/-- Moving tokens keeps their sum, also between an account and itself. -/
theorem finsum_moved {held : Address → Int} (hf : (support held).Finite) (src dst : Address) (amount : Int) :
    ∑ᶠ a, GovToken.moved held src dst amount a = ∑ᶠ a, held a := by
  unfold GovToken.moved
  rw [finsum_update (support_update_finite hf src _), finsum_update hf]
  omega

theorem moved_nonneg {held : Address → Int} (hpos : ∀ a, 0 ≤ held a) {src dst : Address} {amount : Int}
    (h0 : 0 < amount)
    (hfunds : amount ≤ held src) (a : Address) : 0 ≤ GovToken.moved held src dst amount a := by
  have hsent (x : Address) : 0 ≤ update held src (held src - amount) x := by
    rw [update_apply]
    split
    · omega
    · exact hpos x
  unfold GovToken.moved
  rw [update_apply]
  split
  · have := hsent dst
    omega
  · exact hsent a

theorem GovEffect.conserved {g g' : GovToken} {op : GovOp} (he : GovEffect g g' op) (h : Conserved g) :
    Conserved g' := by
  cases he with
  | @minted _ recipient amount hpos hheld hsupply =>
    refine ⟨hheld ▸ support_update_finite h.finite _ _, ?_, fun a => ?_⟩
    · rw [hheld, finsum_update h.finite, h.supply, hsupply]
      omega
    · rw [hheld, update_apply]
      split
      · have := h.nonneg recipient
        omega
      · exact h.nonneg a
  | transferred hpos hfunds hheld hmetrics =>
    refine ⟨?_, ?_, fun a => ?_⟩
    · rw [hheld]
      exact support_update_finite (support_update_finite h.finite _ _) _ _
    · rw [hheld, finsum_moved h.finite, h.supply, hmetrics]
    · rw [hheld]
      exact moved_nonneg h.nonneg hpos hfunds a
  | delegated hheld hmetrics => exact h.congr hheld (congrArg _ hmetrics)
  | proposed _ _ hheld hsupply => exact h.congr hheld hsupply
  | voted _ _ hheld hsupply => exact h.congr hheld hsupply
  | finalized _ _ hheld hmetrics => exact h.congr hheld (congrArg _ hmetrics)

theorem conserved_run {world : World} {access : Access} {h s} (hr : Run govToken.Step (govStart world access) h s) :
    Conserved s.store.gov := by
  refine Component.always (I := fun t : GovStore => Conserved t.gov) conserved_empty ?_ ?_ hr
  · intro s signers op t hi he
    exact (govEffect_of he).conserved hi
  · intro w x w' x' hi hd
    rw [hd.2]
    exact hi

/-- In every state reached by calls of the governance token, whatever happens
elsewhere in between, the balances add up to the supply of the metrics and none is
negative. -/
theorem supply_conserved {world : World} {access : Access} {h s} (hr : Run govToken.Step (govStart world access) h s) :
    (support fun a => (s.store.gov.loadBalance a).balance).Finite ∧
      ∑ᶠ a, (s.store.gov.loadBalance a).balance = s.store.gov.metrics.totalSupply ∧
        ∀ a, 0 ≤ (s.store.gov.loadBalance a).balance := by
  have hc := conserved_run hr
  exact ⟨hc.finite, hc.supply, hc.nonneg⟩

/-- Two holders, one of whom transfers to itself, delegates and votes. -/
def govCalls : List (List Address × GovOp) :=
  [([1], .mintGovTokens [1] 2 1000), ([1], .mintGovTokens [1] 3 500), ([2], .transferGovTokens 2 2 300),
    ([2], .transferGovTokens 2 3 400), ([3], .delegateGovVote 3 2), ([2], .createDaoProposal 2 "lower the quorum"),
    ([3], .voteOnProposal 3 0 true)]

theorem supply_conserved_calls :
    ∃ h s, Run govToken.Step (govStart sampleWorld .open) h s ∧ h.length = 7 ∧ s.store.gov.held 2 = 600 ∧
      s.store.gov.metrics.totalSupply = 1500 ∧ s.store.gov.metrics.totalVotesCast = 1 ∧
      (support fun a => (s.store.gov.loadBalance a).balance).Finite ∧
      ∑ᶠ a, (s.store.gov.loadBalance a).balance = s.store.gov.metrics.totalSupply ∧
        ∀ a, 0 ≤ (s.store.gov.loadBalance a).balance := by
  have hr := Component.run_play govToken (.nil : Run govToken.Step (govStart sampleWorld .open) [] _) govCalls
  exact ⟨_, _, hr, by decide +kernel, by decide +kernel, by decide +kernel, by decide +kernel, supply_conserved hr⟩

end QuorumCredit
