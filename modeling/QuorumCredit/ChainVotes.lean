import QuorumCredit.CrossChainGovernance
import QuorumCredit.Guards
import QuorumCredit.Host.Occurrences
import QuorumCredit.Host.Script
import Mathlib.Data.List.Dedup
import Mathlib.Data.List.Perm.Subperm
/-!
# How often a vote counts

A local vote is checked only by the nonce that the voter picks, an attested result
is added whether or not its chain has reported, and the quorum counts the entries of
the list. Each is counted once only if it is reported once.
-/

open Host Function

namespace QuorumCredit

/-! ## What a call does -/

/-- The chains that have reported votes. -/
def CrossChainProposal.reporting (p : CrossChainProposal) : List Nat := p.chainVotes.map (·.chainId)

/-- What a call that goes through found and did. -/
inductive CrossChainEffect (w : World) (s t : CrossChainStore) : CrossChainOp → Prop
  | created {signers description action params chain period} {p : CrossChainProposal} : p.chainVotes = [] →
      p.approveStake = 0 → p.rejectStake = 0 → p.executed = false →
      t.gov.crossChainProposal = update s.gov.crossChainProposal w.now (some p) →
      t.gov.crossChainVote = s.gov.crossChainVote →
      CrossChainEffect w s t (.createCrossChainProposal signers description action params chain period)
  | voted {v id approve chain nonce} {p p' : CrossChainProposal} {vote : CrossChainVote} :
      s.gov.crossChainProposal id = some p →
      t.gov.crossChainProposal = update s.gov.crossChainProposal id (some p') →
      p'.reporting = (if chain ∈ p.reporting then p.reporting else p.reporting ++ [chain]) → p'.executed = p.executed →
      t.gov.crossChainVote = update s.gov.crossChainVote id (update (s.gov.crossChainVote id) v (some vote)) →
      CrossChainEffect w s t (.submitCrossChainVote v id approve chain nonce)
  | aggregated {signers id} {a : VoteAttestation} {p p' : CrossChainProposal} :
      s.gov.crossChainProposal id = some p →
      t.gov.crossChainProposal = update s.gov.crossChainProposal id (some p') →
      p'.reporting = p.reporting ++ [a.originChain] → p'.executed = p.executed →
      t.gov.crossChainVote = s.gov.crossChainVote → CrossChainEffect w s t (.aggregateRemoteVotes signers id a)
  | executed {signers id} {p : CrossChainProposal} : s.gov.crossChainProposal id = some p → p.executed = false →
      p.rejectStake < p.approveStake →
      (s.registry.filter (·.active)).length = 0 ∨
        (s.registry.filter (·.active)).length < p.chainVotes.length * 2 →
      t.gov.crossChainProposal = update s.gov.crossChainProposal id (some { p with executed := true }) →
      t.gov.crossChainVote = s.gov.crossChainVote → CrossChainEffect w s t (.executeCrossChainProposal signers id)

section

variable {ctx : Context} {host : VoteHost}

theorem yields_addChainVote (chain : Nat) (approve : Bool) (votes : List ChainVoteAggregate) (g : CrossChainGov) :
    Yields (addChainVote chain approve votes) ctx g fun votes' g' => g' = g ∧
      votes'.map (·.chainId) = if chain ∈ votes.map (·.chainId) then votes.map (·.chainId)
        else votes.map (·.chainId) ++ [chain] := by
  induction votes with
  | nil =>
    rw [addChainVote, yields_pure]
    exact ⟨rfl, rfl⟩
  | cons agg rest ih =>
    rw [addChainVote, yields_ite]
    constructor
    · intro hsame
      simp only [yields_steps, yields_u32]
      intro _
      simp [hsame]
    · intro hother
      simp only [yields_steps]
      refine ih.mono ?_
      rintro votes' _ ⟨rfl, hvotes⟩
      refine ⟨rfl, ?_⟩
      by_cases hmem : chain ∈ rest.map (·.chainId)
      · rw [if_pos hmem] at hvotes
        simp only [List.map_cons, hvotes, List.mem_cons, hmem, or_true, if_true]
      · rw [if_neg hmem] at hvotes
        simp only [List.map_cons, hvotes, List.mem_cons, hmem, or_false, if_neg (Ne.symm hother), List.cons_append]

theorem yields_proposalMeetsQuorum (registry : List BridgeRecord) (p : CrossChainProposal) (s : CrossChainStore) :
    Yields (proposalMeetsQuorum registry p) ctx s fun quorum s' => s' = s ∧ (quorum = true →
      p.rejectStake < p.approveStake ∧ ((registry.filter (·.active)).length = 0 ∨
        (registry.filter (·.active)).length < p.chainVotes.length * 2)) := by
  unfold proposalMeetsQuorum
  rw [yields_ite]
  constructor
  · intro _
    simp
  · intro hmore
    rw [yields_ite]
    constructor
    · intro hnone
      rw [yields_pure]
      exact ⟨rfl, fun _ => ⟨lt_of_not_ge hmore, .inl hnone⟩⟩
    · intro _
      simp only [yields_steps, yields_u32]
      exact fun _ => ⟨trivial, fun hquorum => ⟨lt_of_not_ge hmore, .inr (of_decide_eq_true hquorum)⟩⟩

theorem yields_requireVotesTimely (attestedAt : Nat) (s : CrossChainStore) :
    Yields (requireVotesTimely attestedAt) ctx s fun _ s' => s' = s := by
  simp only [requireVotesTimely, yields_steps, yields_ite]
  exact ⟨fun _ _ => trivial, fun _ _ => trivial⟩

theorem yields_crossChainOp (op : CrossChainOp) (s : CrossChainStore) :
    Yields (op.run host) ctx s fun _ t => CrossChainEffect ctx.toWorld s t op := by
  cases op with
  | createCrossChainProposal signers description action params chain period =>
    simp only [CrossChainOp.run, createCrossChainProposal, saveCrossChainProposal, discard, yields_parts, yields_steps,
      yields_approved, yields_u64]
    intro _ _ _ _
    exact .created rfl rfl rfl rfl rfl rfl
  | submitCrossChainVote v id approve chain nonce =>
    simp only [CrossChainOp.run, submitCrossChainVote, loadCrossChainProposal, saveCrossChainProposal, yields_parts,
      yields_steps, yields_requireAuth]
    intro _ _ p hp _
    refine (yields_addChainVote chain approve p.chainVotes _).mono ?_
    rintro votes _ ⟨rfl, hvotes⟩
    exact .voted hp rfl hvotes rfl rfl
  | aggregateRemoteVotes signers id a =>
    simp only [CrossChainOp.run, aggregateRemoteVotes, loadCrossChainProposal, saveCrossChainProposal, yields_parts,
      yields_steps, yields_approved, yields_i128]
    intro _ _ _ _
    refine (yields_requireVotesTimely a.attestedAt s).mono ?_
    rintro _ _ rfl _ _ _ p hp _ _
    exact .aggregated hp rfl (by simp [CrossChainProposal.reporting]) rfl rfl
  | executeCrossChainProposal signers id =>
    simp only [CrossChainOp.run, executeCrossChainProposal, loadCrossChainProposal, saveCrossChainProposal,
      yields_parts, yields_steps, yields_approved]
    intro _ p hp hnew _ _
    refine (yields_proposalMeetsQuorum _ p _).mono ?_
    rintro quorum _ ⟨rfl, hquorum⟩ hmet
    obtain ⟨hmore, hchains⟩ := hquorum hmet
    exact .executed hp hnew hmore hchains rfl rfl

end

/-! ## What is counted -/

namespace CrossChainOp

/-- The proposal and the voter of a local vote. -/
def ballot : CrossChainOp → Option (Nat × Address)
  | .submitCrossChainVote v id _ _ _ => some (id, v)
  | _ => none

def enacts : CrossChainOp → Option Nat
  | .executeCrossChainProposal _ id => some id
  | _ => none

/-- The proposal the call is about; a proposal is created under the time. -/
def target (now : Nat) : CrossChainOp → Nat
  | .createCrossChainProposal .. => now
  | .submitCrossChainVote _ id _ _ _ => id
  | .aggregateRemoteVotes _ id _ => id
  | .executeCrossChainProposal _ id => id

end CrossChainOp

/-- The chains with an active bridge, each once. -/
def activeChains (registry : List BridgeRecord) : List Nat := ((registry.filter (·.active)).map (·.chainId)).dedup

/-- An executed proposal has more approval than rejection, and most of the active chains have reported. -/
def ExecutesBacked (s : Situated World CrossChainStore) : CrossChainOp → Prop
  | .executeCrossChainProposal _ id => ∃ p, s.store.gov.crossChainProposal id = some p ∧
      p.rejectStake < p.approveStake ∧ (activeChains s.store.registry).length <
        2 * ((activeChains s.store.registry).filter (· ∈ p.reporting)).length
  | _ => True

def ProposesAnew (s : Situated World CrossChainStore) : CrossChainOp → Prop
  | .createCrossChainProposal .. => s.store.gov.crossChainProposal s.world.now = none
  | _ => True

section

variable (host : VoteHost)

/-- How often the voter's weight has entered the tallies of the proposal. -/
def votesOf (id : Nat) (v : Address) : CrossChainHistory → Int :=
  (crossChainGovernance host).tally fun _ op _ => if op.ballot = some (id, v) then 1 else 0

def executionsOf (id : Nat) : CrossChainHistory → Int :=
  (crossChainGovernance host).tally fun _ op _ => if op.enacts = some id then 1 else 0

/-- Each voter and each chain counts once, and a proposal is executed once, with a majority. -/
structure CountedOnce (h : CrossChainHistory) (s : Situated World CrossChainStore) : Prop where
  votes : ∀ id v, votesOf host id v h ≤ 1
  reports : ∀ id p, s.store.gov.crossChainProposal id = some p → p.reporting.Nodup
  executions : ∀ id, executionsOf host id h ≤ 1
  backed : Along ((crossChainGovernance host).WhenDone ExecutesBacked) h
  anew : Along ((crossChainGovernance host).WhenDone ProposesAnew) h

end

/-- No proposal is created in the second of another one, nobody votes twice on it, no
chain reports on it that already has, and it is executed with all who reported active. -/
def ReportsOnce (s : Situated World CrossChainStore) : CrossChainOp → Prop
  | .createCrossChainProposal .. => s.store.gov.crossChainProposal s.world.now = none
  | .submitCrossChainVote v id _ _ _ => s.store.gov.crossChainVote id v = none
  | .aggregateRemoteVotes _ id a => ∀ p ∈ s.store.gov.crossChainProposal id, a.originChain ∉ p.reporting
  | .executeCrossChainProposal _ id => ∀ p ∈ s.store.gov.crossChainProposal id, ∀ chain ∈ p.reporting,
      ∃ b ∈ s.store.registry, b.chainId = chain ∧ b.active = true

instance (s : Situated World CrossChainStore) (op : CrossChainOp) : Decidable (ReportsOnce s op) := by
  unfold ReportsOnce
  split <;> infer_instance

/-! ## The books of one proposal -/

/-- While all are counted once, the records of a proposal say who has voted and
whether it was executed, and a tally needs a report. -/
structure ProposalBooks (host : VoteHost) (h : CrossChainHistory) (g : CrossChainGov) (id : Nat) : Prop where
  votes : ∀ v, votesOf host id v h = if (g.crossChainVote id v).isSome then 1 else 0
  executions : executionsOf host id h = (g.crossChainProposal id).elim 0 fun p => if p.executed then 1 else 0
  reports : ∀ p, g.crossChainProposal id = some p → p.reporting.Nodup
  unreported : ∀ p, g.crossChainProposal id = some p → p.reporting = [] → p.approveStake ≤ p.rejectStake

section

variable {host : VoteHost} {h : CrossChainHistory} {s : Situated World CrossChainStore} {signers : List Address}
  {op : CrossChainOp} {t : CrossChainStore} {id : Nat} {v : Address}

theorem crossChainEffect_of (he : (crossChainGovernance host).exec s signers op = some t) :
    CrossChainEffect s.world s.store t op :=
  Component.exec_yields (Q := fun t => CrossChainEffect s.world s.store t op) (yields_crossChainOp op s.store) he

theorem votesOf_call (he : (crossChainGovernance host).exec s signers op = some t) (id : Nat) (v : Address) :
    votesOf host id v ((s, .call signers op) :: h) = votesOf host id v h + if op.ballot = some (id, v)
      then 1 else 0 := by
  rw [votesOf, Component.tally_call he]

theorem executionsOf_call (he : (crossChainGovernance host).exec s signers op = some t) (id : Nat) :
    executionsOf host id ((s, .call signers op) :: h) =
      executionsOf host id h + if op.enacts = some id then 1 else 0 := by
  rw [executionsOf, Component.tally_call he]

/-- What a call leaves alone: every other proposal. -/
theorem proposal_frame (he : (crossChainGovernance host).exec s signers op = some t)
    (hne : id ≠ op.target s.world.now) :
    t.gov.crossChainProposal id = s.store.gov.crossChainProposal id ∧
      t.gov.crossChainVote id = s.store.gov.crossChainVote id := by
  cases crossChainEffect_of he with
  | created _ _ _ _ hproposal hvote =>
    exact ⟨(congrFun hproposal id).trans (update_of_ne hne _ _), congrFun hvote id⟩
  | voted _ hproposal _ _ hvote =>
    exact ⟨(congrFun hproposal id).trans (update_of_ne hne _ _), (congrFun hvote id).trans (update_of_ne hne _ _)⟩
  | aggregated _ hproposal _ _ hvote =>
    exact ⟨(congrFun hproposal id).trans (update_of_ne hne _ _), congrFun hvote id⟩
  | executed _ _ _ _ hproposal hvote =>
    exact ⟨(congrFun hproposal id).trans (update_of_ne hne _ _), congrFun hvote id⟩

theorem ProposalBooks.other (hb : ProposalBooks host h s.store.gov id)
    (he : (crossChainGovernance host).exec s signers op = some t) (hne : id ≠ op.target s.world.now) :
    ProposalBooks host ((s, .call signers op) :: h) t.gov id := by
  obtain ⟨hproposal, hvote⟩ := proposal_frame he hne
  have hballot : ∀ v, op.ballot ≠ some (id, v) := by
    intro v hballot
    cases op <;> simp_all [CrossChainOp.ballot, CrossChainOp.target]
  have henacts : op.enacts ≠ some id := by
    intro henacts
    cases op <;> simp_all [CrossChainOp.enacts, CrossChainOp.target]
  constructor
  · intro v
    rw [votesOf_call he, if_neg (hballot v), add_zero, hvote]
    exact hb.votes v
  · rw [executionsOf_call he, if_neg henacts, add_zero, hproposal]
    exact hb.executions
  · rw [hproposal]
    exact hb.reports
  · rw [hproposal]
    exact hb.unreported

/-- A call that writes the proposal and enacts nothing. -/
theorem ProposalBooks.written (hb : ProposalBooks host h s.store.gov id)
    (he : (crossChainGovernance host).exec s signers op = some t) (henacts : op.enacts ≠ some id)
    (hvotes : ∀ v, votesOf host id v ((s, .call signers op) :: h) = if (t.gov.crossChainVote id v).isSome then 1 else 0)
    {p : CrossChainProposal} (hproposal : t.gov.crossChainProposal = update s.store.gov.crossChainProposal id (some p))
    (hexecuted : (s.store.gov.crossChainProposal id).elim 0 (fun p => if p.executed then 1 else 0) =
      if p.executed then (1 : Int) else 0)
    (hreports : p.reporting.Nodup) (hunreported : p.reporting = [] → p.approveStake ≤ p.rejectStake) :
    ProposalBooks host ((s, .call signers op) :: h) t.gov id := by
  have hnow : t.gov.crossChainProposal id = some p := (congrFun hproposal id).trans (update_self _ _ _)
  constructor
  · exact hvotes
  · rw [executionsOf_call he, if_neg henacts, add_zero, hb.executions, hnow, hexecuted]
    rfl
  · rw [hnow]
    rintro _ ⟨⟩
    exact hreports
  · rw [hnow]
    rintro _ ⟨⟩
    exact hunreported

/-- The votes stay as they are when nobody votes. -/
theorem ProposalBooks.votes_kept (hb : ProposalBooks host h s.store.gov id)
    (he : (crossChainGovernance host).exec s signers op = some t) (hballot : op.ballot = none)
    (hvote : t.gov.crossChainVote = s.store.gov.crossChainVote) (v : Address) :
    votesOf host id v ((s, .call signers op) :: h) = if (t.gov.crossChainVote id v).isSome then 1 else 0 := by
  have hnot : op.ballot ≠ some (id, v) := by simp [hballot]
  rw [votesOf_call he, if_neg hnot, add_zero, hvote]
  exact hb.votes v

theorem ProposalBooks.call (hb : ProposalBooks host h s.store.gov id) (hok : ReportsOnce s op)
    (he : (crossChainGovernance host).exec s signers op = some t) :
    ProposalBooks host ((s, .call signers op) :: h) t.gov id := by
  by_cases hid : id = op.target s.world.now
  case neg => exact hb.other he hid
  cases crossChainEffect_of he with
  | created hvotes happrove hreject hnew hproposal hvote =>
    obtain rfl : id = s.world.now := hid
    refine hb.written he (by simp [CrossChainOp.enacts]) (hb.votes_kept he rfl hvote) hproposal ?_ ?_ ?_
    · rw [hok, hnew]
      rfl
    · simp [CrossChainProposal.reporting, hvotes]
    · intro _
      rw [happrove, hreject]
  | @voted v id' _ chain _ p p' vote hp hproposal hreports hexecuted hvote =>
    obtain rfl : id = id' := hid
    refine hb.written he (by simp [CrossChainOp.enacts]) ?_ hproposal ?_ ?_ ?_
    · intro w
      rw [votesOf_call he, hb.votes, hvote, update_self]
      by_cases hw : w = v
      · rw [hw, hok, update_self, CrossChainOp.ballot, if_pos rfl]
        rfl
      · have hballot : some (id, v) ≠ some (id, w) := by simp [Ne.symm hw]
        rw [update_of_ne hw, CrossChainOp.ballot, if_neg hballot, add_zero]
    · rw [hp, hexecuted]
      rfl
    · rw [hreports]
      split
      case isTrue => exact hb.reports p hp
      case isFalse hnew => exact List.nodup_append_comm.1 (List.nodup_cons.2 ⟨hnew, hb.reports p hp⟩)
    · intro hnone
      rw [hreports] at hnone
      split at hnone
      case isTrue hmem => exact (List.ne_nil_of_mem hmem hnone).elim
      case isFalse => simp at hnone
  | @aggregated _ id' a p p' hp hproposal hreports hexecuted hvote =>
    obtain rfl : id = id' := hid
    refine hb.written he (by simp [CrossChainOp.enacts]) (hb.votes_kept he rfl hvote) hproposal ?_ ?_ ?_
    · rw [hp, hexecuted]
      rfl
    · rw [hreports]
      exact List.nodup_append_comm.1 (List.nodup_cons.2 ⟨hok p hp, hb.reports p hp⟩)
    · intro hnone
      simp [hreports] at hnone
  | @executed _ id' p hp hnew hmore hchains hproposal hvote =>
    obtain rfl : id = id' := hid
    have hnow := (congrFun hproposal _).trans (update_self _ _ _)
    constructor
    · exact hb.votes_kept he rfl hvote
    · rw [executionsOf_call he, hb.executions, hnow, hp]
      simp [CrossChainOp.enacts, hnew]
    · rw [hnow]
      rintro _ ⟨⟩
      exact hb.reports p hp
    · rw [hnow]
      rintro _ ⟨⟩
      exact hb.unreported p hp

/-! ## The majority -/

theorem mem_activeChains {registry : List BridgeRecord} {chain : Nat} :
    chain ∈ activeChains registry ↔ ∃ b ∈ registry, b.chainId = chain ∧ b.active = true := by
  simp only [activeChains, List.mem_dedup, List.mem_map, List.mem_filter]
  constructor
  · rintro ⟨b, ⟨hmem, hactive⟩, hchain⟩
    exact ⟨b, hmem, hchain, hactive⟩
  · rintro ⟨b, hmem, hchain, hactive⟩
    exact ⟨b, ⟨hmem, hactive⟩, hchain⟩

theorem length_activeChains_le (registry : List BridgeRecord) :
    (activeChains registry).length ≤ (registry.filter (·.active)).length := by
  calc (activeChains registry).length
      ≤ ((registry.filter (·.active)).map (·.chainId)).length := (List.dedup_sublist _).length_le
    _ = (registry.filter (·.active)).length := List.length_map _

/-- Chains that are all active and different are so many of the active ones. -/
theorem length_le_reporting {registry : List BridgeRecord} {reporting : List Nat} (hnodup : reporting.Nodup)
    (hactive : ∀ chain ∈ reporting, ∃ b ∈ registry, b.chainId = chain ∧ b.active = true) :
    reporting.length ≤ ((activeChains registry).filter (· ∈ reporting)).length := by
  have hsubset : reporting ⊆ (activeChains registry).filter (· ∈ reporting) := by
    intro chain hmem
    simp only [List.mem_filter, decide_eq_true_eq]
    exact ⟨mem_activeChains.2 (hactive chain hmem), hmem⟩
  exact (hnodup.subperm hsubset).length_le

theorem executesBacked_of_books (hb : ∀ id, ProposalBooks host h s.store.gov id) (hok : ReportsOnce s op)
    (he : (crossChainGovernance host).exec s signers op = some t) : ExecutesBacked s op := by
  cases crossChainEffect_of he with
  | created => trivial
  | voted => trivial
  | aggregated => trivial
  | @executed _ id p hp _ hmore hchains =>
    refine ⟨p, hp, hmore, ?_⟩
    have hreported := length_le_reporting ((hb id).reports p hp) (hok p hp)
    have hle := length_activeChains_le s.store.registry
    have hlength : p.reporting.length = p.chainVotes.length := List.length_map _
    rcases hchains with hnone | hmost
    · -- without an active chain nobody has reported, and nothing was tallied
      have hempty : p.reporting ≠ [] := fun hnil =>
        absurd ((hb id).unreported p hp hnil) (not_le_of_gt hmore)
      have hpos := List.length_pos_of_ne_nil hempty
      omega
    · omega

theorem proposesAnew_of_once (hok : ReportsOnce s op) : ProposesAnew s op := by
  cases op with
  | createCrossChainProposal => exact hok
  | submitCrossChainVote => trivial
  | aggregateRemoteVotes => trivial
  | executeCrossChainProposal => trivial

/-! ## Runs -/

structure ChainVotesSound (host : VoteHost) (h : CrossChainHistory) (s : Situated World CrossChainStore) : Prop where
  books : ∀ id, ProposalBooks host h s.store.gov id
  backed : Along ((crossChainGovernance host).WhenDone ExecutesBacked) h
  anew : Along ((crossChainGovernance host).WhenDone ProposesAnew) h

theorem ChainVotesSound.call (hs : ChainVotesSound host h s) (hok : ReportsOnce s op)
    (he : (crossChainGovernance host).exec s signers op = some t) :
    ChainVotesSound host ((s, .call signers op) :: h) ⟨s.world, t⟩ :=
  ⟨fun id => (hs.books id).call hok he,
    List.forall_mem_cons.2 ⟨Component.whenDone_call (executesBacked_of_books hs.books hok he) signers, hs.backed⟩,
    List.forall_mem_cons.2 ⟨Component.whenDone_call (proposesAnew_of_once hok) signers, hs.anew⟩⟩

theorem ChainVotesSound.unchanged {e : Event World (List Address) CrossChainStore CrossChainOp}
    {s' : Situated World CrossChainStore} (hs : ChainVotesSound host h s)
    (hnone : (crossChainGovernance host).done s e = none)
    (hsame : s' = s ∨ (crossChainGovernance host).drift s.world s.store s'.world s'.store) :
    ChainVotesSound host ((s, e) :: h) s' := by
  have hgov : s'.store.gov = s.store.gov := by
    rcases hsame with rfl | ⟨-, -, hgov⟩
    · rfl
    · exact hgov
  have hidle : ∀ p, (crossChainGovernance host).WhenDone p s e := by
    intro p d hd
    rw [hnone] at hd
    cases hd
  refine ⟨fun id => ?_, List.forall_mem_cons.2 ⟨hidle _, hs.backed⟩, List.forall_mem_cons.2 ⟨hidle _, hs.anew⟩⟩
  obtain ⟨hvotes, hexecutions, hreports, hunreported⟩ := hs.books id
  rw [hgov]
  refine ⟨fun v => ?_, ?_, hreports, hunreported⟩
  · rw [votesOf, Component.tally_idle hnone]
    exact hvotes v
  · rw [executionsOf, Component.tally_idle hnone]
    exact hexecutions

theorem ChainVotesSound.countedOnce (hs : ChainVotesSound host h s) : CountedOnce host h s := by
  refine ⟨fun id v => ?_, fun id => (hs.books id).reports, fun id => ?_, hs.backed, hs.anew⟩
  · rw [(hs.books id).votes v]
    split <;> omega
  · rw [(hs.books id).executions]
    cases s.store.gov.crossChainProposal id with
    | none => exact zero_le_one
    | some p =>
      simp only [Option.elim_some]
      split <;> omega

theorem chainVotesSound_start (world : World) (registry : List BridgeRecord) (bridges : Bridges) :
    ChainVotesSound host [] (crossChainStart world registry bridges) := by
  refine ⟨fun id => ?_, fun _ hmem => (List.not_mem_nil hmem).elim, fun _ hmem => (List.not_mem_nil hmem).elim⟩
  constructor
  · intro v
    rfl
  · rfl
  · intro p hp
    cases hp
  · intro p hp
    cases hp

/-- In a run in which all is reported once, each voter and each chain counts once and
a proposal is executed once, with a majority. -/
theorem chain_votes_counted_once {world : World} {registry : List BridgeRecord} {bridges : Bridges}
    (hr : Run (crossChainGovernance host).Step (crossChainStart world registry bridges) h s)
    (hok : Along ((crossChainGovernance host).WhenDone ReportsOnce) h) : CountedOnce host h s := by
  have hsound : ChainVotesSound host h s :=
    Component.inv_throughout (I := ChainVotesSound host)
      (chainVotesSound_start world registry bridges) (fun _ hs hok he => hs.call hok he)
      (fun hs hnone hsame => hs.unchanged hnone hsame) hr hok.throughout
  exact hsound.countedOnce

end

/-! ## Two votes -/

def sampleVoteHost : VoteHost :=
  { toXdr := fun _ => [], sha256 := fun _ => .replicate 32 0, ed25519Verify := fun _ _ _ => false }

/-- One active bridge, to chain 5. -/
def sampleBridges : List BridgeRecord := [{ chainId := 5, chainName := "five", bridgeAddress := 8, active := true }]

/-- Account 1 opens a proposal for 100 seconds, and account 2 approves it. -/
def openedProposal : List (Component.Act (List Address) CrossChainOp) :=
  [.call [1] (.createCrossChainProposal [1] "raise" "set" [] 5 100),
    .call [2] (.submitCrossChainVote 2 1000000 true 5 1)]

def afterVotes (acts : List (Component.Act (List Address) CrossChainOp)) : Situated World CrossChainStore :=
  (crossChainGovernance sampleVoteHost).perform World.later (crossChainStart sampleWorld sampleBridges .empty)
    (openedProposal ++ acts)

def votesHistory (acts : List (Component.Act (List Address) CrossChainOp)) : CrossChainHistory :=
  (crossChainGovernance sampleVoteHost).record World.later (crossChainStart sampleWorld sampleBridges .empty) []
    (openedProposal ++ acts)

theorem run_votes (acts : List (Component.Act (List Address) CrossChainOp)) :
    Run (crossChainGovernance sampleVoteHost).Step (crossChainStart sampleWorld sampleBridges .empty)
      (votesHistory acts) (afterVotes acts) :=
  Component.run_perform (C := crossChainGovernance sampleVoteHost) World.later
    (fun _ _ _ => ⟨Nat.le_add_right _ _, rfl, rfl⟩) .nil _

/-- Account 3 approves too, and the proposal is executed after its delay. -/
def enactedProposal : List (Component.Act (List Address) CrossChainOp) :=
  [.call [3] (.submitCrossChainVote 3 1000000 true 5 2), .wait 90000,
    .call [1] (.executeCrossChainProposal [1] 1000000)]

theorem chain_votes_enacted :
    CountedOnce sampleVoteHost (votesHistory enactedProposal) (afterVotes enactedProposal) ∧
      executionsOf sampleVoteHost 1000000 (votesHistory enactedProposal) = 1 := by
  constructor
  · refine chain_votes_counted_once (run_votes enactedProposal) ?_
    unfold Along
    decide +kernel
  · unfold executionsOf
    decide +kernel

/-- Account 2 votes once more, under another nonce. -/
theorem chain_votes_counted_twice :
    ¬ ∀ host world registry bridges h s,
      Run (crossChainGovernance host).Step (crossChainStart world registry bridges) h s → CountedOnce host h s := by
  intro hclaim
  have hcounted := (hclaim _ _ _ _ _ _
      (run_votes [.call [2] (.submitCrossChainVote 2 1000000 true 5 2)])).votes 1000000 2
  unfold votesOf at hcounted
  exact absurd hcounted (by decide +kernel)

end QuorumCredit
