import QuorumCredit.Host.OneShot
import QuorumCredit.Multisig
import QuorumCredit.Paused
/-!
# Timelocked actions

What the governance queue, a timelocked slash and a timelocked change of the
configuration have in common: a proposal is executed once or cancelled, and
executed within the window it was given when it was made. The queue keeps the
window and a status, the timelocks keep the start of the window and two flags.
-/

open Host Function

namespace QuorumCredit

/-! ## Proposals and their tickets -/

/-- A proposal with a window: in the governance queue, or under a timelock. -/
inductive ProposalId where
  | queued (id : Nat)
  | timelocked (id : Nat)
deriving DecidableEq, Repr

/-- Nothing is decided any more: executed, cancelled or expired. -/
def GovernanceProposalStatus.isFinal : GovernanceProposalStatus → Bool
  | .pending | .approved => false
  | .executed | .cancelled | .expired => true

def GovernanceProposal.ticket (p : GovernanceProposal) : Ticket :=
  { opens := p.executableAt, closes := p.expiresAt, spent := p.status.isFinal }

def TimelockProposal.ticket (p : TimelockProposal) : Ticket :=
  { opens := p.eta, closes := p.eta + timelockExpiry, spent := p.executed || p.cancelled }

/-- The window of a stored proposal, and whether it was executed or cancelled. -/
def AdminStore.ticket (a : AdminStore) : ProposalId → Option Ticket
  | .queued id => (a.governanceProposals.entry id).map GovernanceProposal.ticket
  | .timelocked id => (a.timelocks.entry id).map TimelockProposal.ticket

/-- The proposal a call is to execute. -/
def LendingOp.executes : LendingOp → Option ProposalId
  | .admin (.executeGovernanceAction id) => some (.queued id)
  | .admin (.executeConfigChange id) => some (.timelocked id)
  | .executeSlashProposal id => some (.timelocked id)
  | _ => none

/-- The proposal a call is to cancel. -/
def LendingOp.cancels : LendingOp → Option ProposalId
  | .admin (.cancelGovernanceAction _ id) => some (.queued id)
  | .admin (.cancelConfigChange _ id) => some (.timelocked id)
  | .admin (.cancelSlashProposal _ id) => some (.timelocked id)
  | _ => none

theorem GovernanceProposalStatus.isFinal_of_open {status : GovernanceProposalStatus}
    (h : status ≠ .executed ∧ status ≠ .cancelled) (hexpired : status ≠ .expired) : status.isFinal = false := by
  obtain ⟨hexecuted, hcancelled⟩ := h
  cases status with
  | pending | approved => rfl
  | executed => exact absurd rfl hexecuted
  | cancelled => exact absurd rfl hcancelled
  | expired => exact absurd rfl hexpired

/-! ## Tables -/

namespace Table

/-- What a call does to a table whose entries have tickets: nothing, or it adds an
entry, or it stores one anew with its ticket kept. -/
inductive Change {P : Type} (ticket : P → Ticket) (t : Table P) : Table P → Prop
  | same : Change ticket t t
  | added (make : Nat → P) : Change ticket t (t.add make)
  | stored {id p p'} : t.entry id = some p → (ticket p).Kept (ticket p') → Change ticket t (t.store id p')

variable {P : Type} {ticket : P → Ticket} {t t' : Table P}

theorem Change.numbered (hc : t.Change ticket t') (hn : t.Numbered) : t'.Numbered := by
  cases hc with
  | same => exact hn
  | added make => exact hn.add
  | stored hp _ => exact hn.store hp

/-- No entry is lost, and its ticket is kept. -/
theorem Change.keep (hc : t.Change ticket t') (hn : t.Numbered) {i : Nat} {p : P} (hp : t.entry i = some p) :
    ∃ p', t'.entry i = some p' ∧ (ticket p).Kept (ticket p') := by
  cases hc with
  | same => exact ⟨p, hp, .refl _⟩
  | added make =>
    -- the new entry takes a number nothing is stored under
    have hne : i ≠ t.counter + 1 := by
      rintro rfl
      rw [hn _ (Nat.lt_succ_self _)] at hp
      cases hp
    exact ⟨p, by rw [add_entry_of_ne t make hne, hp], .refl _⟩
  | @stored id q q' hq hkept =>
    by_cases hi : i = id
    · subst hi
      rw [hp] at hq
      cases hq
      exact ⟨q', store_entry_self t i q', hkept⟩
    · exact ⟨p, by rw [store_entry_of_ne t id q' hi, hp], .refl _⟩

end Table

/-! ## Calls -/

structure ProposalsKept (a a' : AdminStore) : Prop where
  queue : a.governanceProposals.Change GovernanceProposal.ticket a'.governanceProposals
  timelocks : a.timelocks.Change TimelockProposal.ticket a'.timelocks

/-- What a call does to the proposals at a time: all tickets are kept, what is
executed could be, and what is executed or cancelled is spent. -/
structure ProposalStep (now : Nat) (op : LendingOp) (a a' : AdminStore) : Prop extends ProposalsKept a a' where
  usable : ∀ p, op.executes = some p → ∃ k, a.ticket p = some k ∧ k.Usable now
  spent : ∀ p, op.executes = some p ∨ op.cancels = some p → ∃ k, a'.ticket p = some k ∧ k.spent = true

/-- A call that neither executes nor cancels. -/
theorem ProposalStep.of_change {now : Nat} {op : LendingOp} {a a' : AdminStore}
    (hq : a.governanceProposals.Change GovernanceProposal.ticket a'.governanceProposals)
    (ht : a.timelocks.Change TimelockProposal.ticket a'.timelocks) (hexecutes : op.executes = none)
    (hcancels : op.cancels = none) : ProposalStep now op a a' := by
  refine ⟨⟨hq, ht⟩, fun p hp => ?_, fun p hp => ?_⟩
  · rw [hexecutes] at hp
    cases hp
  · rw [hexecutes, hcancels] at hp
    rcases hp with hp | hp <;> cases hp

/-- Nothing is stored beyond the counters of the two tables. -/
structure AdminStore.ProposalsNumbered (a : AdminStore) : Prop where
  queue : a.governanceProposals.Numbered
  timelocks : a.timelocks.Numbered

namespace ProposalsKept

variable {a a' : AdminStore}

theorem numbered (h : ProposalsKept a a') (hn : a.ProposalsNumbered) : a'.ProposalsNumbered :=
  ⟨h.queue.numbered hn.queue, h.timelocks.numbered hn.timelocks⟩

theorem keep (h : ProposalsKept a a') (hn : a.ProposalsNumbered) {p : ProposalId} {k : Ticket}
    (hk : a.ticket p = some k) : ∃ k', a'.ticket p = some k' ∧ k.Kept k' := by
  cases p with
  | queued id =>
    obtain ⟨q, hq, rfl⟩ := Option.map_eq_some_iff.1 hk
    obtain ⟨q', hq', hkept⟩ := h.queue.keep hn.queue hq
    exact ⟨q'.ticket, Option.map_eq_some_iff.2 ⟨q', hq', rfl⟩, hkept⟩
  | timelocked id =>
    obtain ⟨q, hq, rfl⟩ := Option.map_eq_some_iff.1 hk
    obtain ⟨q', hq', hkept⟩ := h.timelocks.keep hn.timelocks hq
    exact ⟨q'.ticket, Option.map_eq_some_iff.2 ⟨q', hq', rfl⟩, hkept⟩

end ProposalsKept

/-- The calls that look at how far a proposal has come. -/
def AdminOp.decides : AdminOp → Bool
  | .approveGovernanceAction .. | .rejectGovernanceAction .. | .executeGovernanceAction _ | .cancelGovernanceAction ..
  | .executeConfigChange _ | .cancelConfigChange .. | .cancelSlashProposal .. => true
  | _ => false

theorem LendingOp.of_decides {op : AdminOp} (h : op.decides = false) :
    (LendingOp.admin op).executes = none ∧ (LendingOp.admin op).cancels = none := by
  cases op <;> first | exact ⟨rfl, rfl⟩ | cases h

section

variable {now : Nat} {op : AdminOp} {a a' : AdminStore}

/-- The other calls of the administration add a proposal, or leave the proposals alone. -/
theorem AdminEffect.proposalStep (he : AdminEffect a op a') (hop : op.decides = false) :
    ProposalStep now (.admin op) a a' := by
  obtain ⟨hexecutes, hcancels⟩ := LendingOp.of_decides hop
  have hsame (hrecords : a'.records = a.records) : ProposalStep now (.admin op) a a' := by
    have hq : a'.governanceProposals = a.governanceProposals := congrArg AdminRecords.governanceProposals hrecords
    have ht : a'.timelocks = a.timelocks := congrArg AdminRecords.timelocks hrecords
    exact .of_change (hq ▸ .same) (ht ▸ .same) hexecutes hcancels
  cases he with
  | other _ _ hrecords _ => exact hsame hrecords
  | ran hdone => exact hsame hdone.records
  | executedAction _ _ hdone =>
    exact .of_change (hdone.governanceProposals ▸ .same) (hdone.timelocks ▸ .same) hexecutes hcancels
  | queued => exact .of_change (.added _) .same hexecutes hcancels
  | proposedChange => exact .of_change .same (.added _) hexecutes hcancels
  | approvedQueued | rejectedQueued | executedQueued | cancelledQueued | executedChange => cases hop
  | cancelledTimelock hkind => rcases hkind with ⟨_, rfl⟩ | ⟨_, rfl⟩ <;> cases hop
  | _ => exact .of_change .same .same hexecutes hcancels

end

namespace Admin

variable {ctx : AdminContext} {g : Governed}

@[simp] theorem yields_requireOpen (status : GovernanceProposalStatus) (Q : Unit → Governed → Prop) :
    Yields (requireOpen status) ctx g Q ↔ (status.isFinal = false → Q () g) := by
  simp only [requireOpen, yields_steps]
  constructor
  · intro h hopen
    refine h ⟨?_, ?_⟩ ?_ <;> rintro rfl <;> cases hopen
  · exact fun h hne hexpired => h (GovernanceProposalStatus.isFinal_of_open hne hexpired)

section

variable {now : Nat} {a : AdminStore} {id : Nat} {p p' : GovernanceProposal} {q q' : TimelockProposal}

theorem ticket_queued (h : a.governanceProposals.entry id = some p) : a.ticket (.queued id) = some p.ticket := by
  rw [AdminStore.ticket, h]
  rfl

theorem ticket_timelocked (h : a.timelocks.entry id = some q) : a.ticket (.timelocked id) = some q.ticket := by
  rw [AdminStore.ticket, h]
  rfl

/-- An open timelock is neither executed nor cancelled. -/
theorem timelock_unspent (hexecuted : q.executed = false) (hcancelled : q.cancelled = false) :
    q.ticket.spent = false := by
  simp [TimelockProposal.ticket, hexecuted, hcancelled]

end

/-- What a call of the administration does to the proposals. -/
theorem step_of_dispatch (op : AdminOp) :
    Yields (Admin.dispatch op) ctx g fun _ t => ProposalStep ctx.now (.admin op) g.admin t.admin := by
  cases op with
  | approveGovernanceAction admin id =>
    simp only [Admin.dispatch, approveGovernanceAction, requireUndecided, storeGovernanceProposal, yields_steps,
      yields_config, yields_isAdmin, yields_onAdmin, yields_requireAuth, yields_load, yields_requireOpen]
    intro _ _ p hp hopen _ _
    exact .of_change (.stored hp (.of_unspent hopen rfl rfl)) .same rfl rfl
  | rejectGovernanceAction admin id =>
    simp only [Admin.dispatch, rejectGovernanceAction, requireUndecided, storeGovernanceProposal, yields_steps,
      yields_config, yields_isAdmin, yields_onAdmin, yields_requireAuth, yields_load, yields_requireOpen]
    intro _ _ p hp hopen _ _
    exact .of_change (.stored hp (.of_unspent hopen rfl rfl)) .same rfl rfl
  | executeGovernanceAction id =>
    simp only [Admin.dispatch, executeGovernanceAction, storeGovernanceProposal, yields_steps, yields_onAdmin,
      yields_load, yields_requireOpen]
    intro p hp hopen _ hopens hcloses
    refine (done_internal p.action).mono fun _ t hdone => ?_
    refine ⟨⟨?_, hdone.timelocks ▸ .same⟩, ?_, ?_⟩
    · rw [← hdone.governanceProposals] at hp ⊢
      exact .stored hp (.of_unspent hopen rfl rfl)
    · rintro _ ⟨⟩
      exact ⟨p.ticket, ticket_queued hp, hopen, hopens, hcloses⟩
    · rintro _ (⟨⟨⟩⟩ | ⟨⟨⟩⟩)
      exact ⟨_, ticket_queued (Table.store_entry_self ..), rfl⟩
  | cancelGovernanceAction caller id =>
    simp only [Admin.dispatch, cancelGovernanceAction, storeGovernanceProposal, yields_steps, yields_isAdmin,
      yields_onAdmin, yields_requireAuth, yields_load, yields_requireOpen]
    intro _ p hp _ hopen
    refine ⟨⟨.stored hp (.of_unspent hopen rfl rfl), .same⟩, ?_, ?_⟩
    · rintro _ ⟨⟩
    · rintro _ (⟨⟨⟩⟩ | ⟨⟨⟩⟩)
      exact ⟨_, ticket_queued (Table.store_entry_self ..), rfl⟩
  | executeConfigChange id =>
    simp only [Admin.dispatch, executeConfigChange, storeTimelock, yields_steps, yields_guard_requireNotPaused,
      yields_load, yields_u64]
    intro _ q hq hexecuted hcancelled hopens _ hcloses
    have hunspent := timelock_unspent hexecuted hcancelled
    split
    · simp only [yields_bind, yields_onAdmin, yields_setConfigEntry]
      refine ⟨⟨.same, .stored hq (.of_unspent hunspent rfl rfl)⟩, ?_, ?_⟩
      · rintro _ ⟨⟩
        exact ⟨q.ticket, ticket_timelocked hq, hunspent, hopens, hcloses⟩
      · rintro _ (⟨⟨⟩⟩ | ⟨⟨⟩⟩)
        exact ⟨_, ticket_timelocked (Table.store_entry_self ..), rfl⟩
    · exact yields_fail _ _ _ _
  | cancelConfigChange signers id =>
    simp only [Admin.dispatch, cancelConfigChange, storeTimelock, yields_steps, yields_onAdmin,
      yields_guard_requireNotPaused, yields_requireAdminApproval, yields_load]
    intro _ _ q hq hopen
    refine ⟨⟨.same, .stored hq (.of_unspent (timelock_unspent hopen.1 hopen.2) rfl rfl)⟩, ?_, ?_⟩
    · rintro _ ⟨⟩
    · rintro _ (⟨⟨⟩⟩ | ⟨⟨⟩⟩)
      exact ⟨_, ticket_timelocked (Table.store_entry_self ..), Bool.or_true _⟩
  | cancelSlashProposal caller id =>
    simp only [Admin.dispatch, cancelSlashProposal, storeTimelock, yields_steps, yields_onAdmin, yields_requireAuth,
      yields_load]
    intro _ q hq _ hopen
    refine ⟨⟨.same, .stored hq (.of_unspent (timelock_unspent hopen.1 hopen.2) rfl rfl)⟩, ?_, ?_⟩
    · rintro _ ⟨⟩
    · rintro _ (⟨⟨⟩⟩ | ⟨⟨⟩⟩)
      exact ⟨_, ticket_timelocked (Table.store_entry_self ..), Bool.or_true _⟩
  | _ => exact (effect_of_dispatch _).mono fun _ t he => he.proposalStep rfl

end Admin

/-! ## Timelocked slashes -/

section

variable {ctx : AdminContext} {s : ProtocolStore}

theorem step_proposeSlash (proposer borrower : Address) (delaySecs : Nat) :
    Yields (proposeSlash proposer borrower delaySecs) ctx s fun _ t =>
      ProposalStep ctx.now (.proposeSlash proposer borrower delaySecs) s.admin t.admin := by
  simp only [proposeSlash, Admin.addTimelock, yields_steps, yields_zoom, yields_u64, Admin.yields_requireAuth,
    Admin.yields_guard_requireNotPaused, Admin.yields_requireNextId, Admin.yields_onAdmin]
  intro _ _ _ _ _ _ _
  have hadded : s.admin.timelocks.Change TimelockProposal.ticket
      (s.admin.timelocks.add fun id => ⟨id, .slash borrower, proposer, ctx.now + delaySecs, false, false⟩) := .added _
  exact .of_change .same hadded rfl rfl

theorem step_executeSlashProposal (id : Nat) :
    Yields (executeSlashProposal id) ctx s fun _ t =>
      ProposalStep ctx.now (.executeSlashProposal id) s.admin t.admin := by
  simp only [executeSlashProposal, Admin.storeTimelock, yields_steps, yields_zoom, yields_u64,
    Admin.yields_guard_requireNotPaused, Admin.yields_load]
  intro _ q hq hexecuted hcancelled hopens _ hcloses
  have hunspent := Admin.timelock_unspent hexecuted hcancelled
  split
  · -- the slash itself writes nothing of the administration
    simp only [yields_bind, yields_zoom, yields_under, Admin.yields_onAdmin]
    intro _ _ _
    refine ⟨⟨.same, .stored hq (.of_unspent hunspent rfl rfl)⟩, ?_, ?_⟩
    · rintro _ ⟨⟩
      exact ⟨q.ticket, Admin.ticket_timelocked hq, hunspent, hopens, hcloses⟩
    · rintro _ (⟨⟨⟩⟩ | ⟨⟨⟩⟩)
      exact ⟨_, Admin.ticket_timelocked (Table.store_entry_self ..), rfl⟩
  · exact yields_fail _ _ _ _

end

/-! ## Steps -/

/-- A function of the core leaves the administration alone. -/
theorem step_inCore {σ : Type} [Host.Part LendingStore σ] {x : Contract σ Unit} {ctx : AdminContext} {s : LendingStore}
    {op : LendingOp} (hadmin : ∀ (c : σ), (Host.Part.set c s).protocol.admin = s.protocol.admin)
    (hexecutes : op.executes = none) (hcancels : op.cancels = none) :
    Yields (inCore x) ctx s fun _ t => ProposalStep ctx.now op s.protocol.admin t.protocol.admin := by
  simp only [inCore, yields_under, yields_zoom]
  intro _ c _
  rw [hadmin]
  exact .of_change .same .same hexecutes hcancels

theorem proposalStep_of_exec {s : LendingState} {signers : List Address} {op : LendingOp} {t : LendingStore}
    (he : lending.exec s signers op = some t) :
    ProposalStep s.world.now op s.store.protocol.admin t.protocol.admin := by
  have hyields : Yields op.dispatch (lending.context s.world signers) s.store fun _ t =>
      ProposalStep s.world.now op s.store.protocol.admin t.protocol.admin := by
    cases op with
    | core op =>
      rw [LendingOp.dispatch, yields_zoom, yields_invoke_core]
      intro _ _ _
      exact .of_change .same .same rfl rfl
    | admin op =>
      rw [LendingOp.dispatch, yields_zoom, yields_invoke_admin]
      exact Admin.step_of_dispatch op
    | proposeSlash proposer borrower delaySecs =>
      simp only [LendingOp.dispatch, invoke, yields_zoom, yields_steps]
      exact step_proposeSlash proposer borrower delaySecs
    | executeSlashProposal id =>
      simp only [LendingOp.dispatch, invoke, yields_zoom, yields_steps]
      exact step_executeSlashProposal id
    | _ => exact step_inCore (fun _ => rfl) rfl rfl
  exact Component.exec_yields (Q := fun t => ProposalStep s.world.now op s.store.protocol.admin t.protocol.admin)
    hyields he

theorem step_time {s s' : LendingState} {e : LendingEvent} (hst : lending.Step s e s') :
    s.world.now ≤ s'.world.now := by
  rcases hst.cases with ⟨_, _, -, -, hworld⟩ | ⟨-, rfl⟩ | ⟨-, x, hdrift, -⟩
  · rw [hworld]
  · exact Nat.le_refl _
  · cases hdrift with
    | elsewhere hnow => exact hnow

theorem step_kept {s s' : LendingState} {e : LendingEvent} (hst : lending.Step s e s') :
    ProposalsKept s.store.protocol.admin s'.store.protocol.admin := by
  rcases hst.cases with ⟨signers, op, -, he, -⟩ | ⟨-, rfl⟩ | ⟨-, x, hdrift, hstore⟩
  · exact (proposalStep_of_exec he).toProposalsKept
  · exact ⟨.same, .same⟩
  · rw [hstore]
    cases hdrift with
    | elsewhere => exact ⟨.same, .same⟩

/-! ## Runs -/

/-- The proposal that an event executed. -/
def executedProposal (s : LendingState) (e : LendingEvent) : Option ProposalId :=
  (lending.done s e).bind fun d => d.1.executes

/-- The proposal that an event cancelled. -/
def cancelledProposal (s : LendingState) (e : LendingEvent) : Option ProposalId :=
  (lending.done s e).bind fun d => d.1.cancels

def ticketOf (s : LendingState) : ProposalId → Option Ticket := s.store.protocol.admin.ticket

/-- The proposal was executed, cancelled or found expired, or its window has passed. -/
def ProposalOver (s : LendingState) (p : ProposalId) : Prop := HoldsOf ticketOf (·.Over s.world.now) s p

instance (s : LendingState) (p : ProposalId) : Decidable (ProposalOver s p) :=
  inferInstanceAs (Decidable (HoldsOf _ _ s p))

/-- Some call executes the proposal now. -/
def Executable (s : LendingState) (p : ProposalId) : Prop :=
  ∃ signers op, op.executes = some p ∧ (lending.exec s signers op).isSome = true

section

variable {s s' : LendingState} {e : LendingEvent} {p : ProposalId}

/-- An event that executed or cancelled a proposal was a call that did so. -/
theorem proposalStep_of_done (hst : lending.Step s e s')
    (hp : executedProposal s e = some p ∨ cancelledProposal s e = some p) :
    ∃ op, ProposalStep s.world.now op s.store.protocol.admin s'.store.protocol.admin ∧
      op.executes = executedProposal s e ∧ op.cancels = cancelledProposal s e := by
  rcases hst.cases with ⟨signers, op, rfl, he, -⟩ | ⟨hnone, -⟩ | ⟨hnone, -⟩
  · refine ⟨op, proposalStep_of_exec he, ?_, ?_⟩
    · rw [executedProposal, Component.done_call he]
      rfl
    · rw [cancelledProposal, Component.done_call he]
      rfl
  all_goals
    rw [executedProposal, cancelledProposal, hnone] at hp
    rcases hp with hp | hp <;> cases hp

/-- The contract respects the tickets of its proposals. -/
theorem lending_tickets :
    Tickets (fun s e s' => s.store.protocol.admin.ProposalsNumbered ∧ lending.Step s e s') (·.world.now) ticketOf
      executedProposal cancelledProposal where
  time h := step_time h.2
  keep h hk := (step_kept h.2).keep h.1 hk
  use h hp := by
    obtain ⟨op, hop, hexecutes, -⟩ := proposalStep_of_done h.2 (.inl hp)
    exact hop.usable _ (hexecutes.trans hp)
  spend h hp := by
    obtain ⟨op, hop, hexecutes, -⟩ := proposalStep_of_done h.2 (.inl hp)
    exact hop.spent _ (.inl (hexecutes.trans hp))
  void h hp := by
    obtain ⟨op, hop, -, hcancels⟩ := proposalStep_of_done h.2 (.inr hp)
    exact hop.spent _ (.inr (hcancels.trans hp))

end

/-- What holds of all proposals after a run. -/
structure RunOnce (h : List (LendingState × LendingEvent)) (s : LendingState) : Prop where
  /-- No proposal is executed twice. -/
  once : (usedKeys executedProposal h).Nodup
  /-- The window of a proposal does not change. -/
  window : ∀ t e p k, (t, e) ∈ h → ticketOf t p = some k →
    ∃ k', ticketOf s p = some k' ∧ k'.opens = k.opens ∧ k'.closes = k.closes
  /-- A proposal is executed in its window. -/
  inTime : ∀ t e p, (t, e) ∈ h → executedProposal t e = some p →
    ∃ k, ticketOf s p = some k ∧ k.opens ≤ t.world.now ∧ t.world.now ≤ k.closes
  /-- Once executed, cancelled or expired, it is over for good. -/
  final : ∀ later t e earlier p, h = later ++ (t, e) :: earlier →
    executedProposal t e = some p ∨ cancelledProposal t e = some p ∨ ProposalOver t p →
    p ∉ usedKeys executedProposal later ∧ ProposalOver s p
  /-- What is over cannot be executed. -/
  closed : ∀ p, ProposalOver s p → ¬ Executable s p

/-- From every deployment on, whoever calls what and however time passes, a
proposal is executed once at most, in its window, and never after it is over. -/
theorem proposals_run_once {h : List (LendingState × LendingEvent)} {s : LendingState} (hr : LendingHistory h s) :
    RunOnce h s := by
  obtain ⟨d, w, bank, hr⟩ := hr
  have hstart : (d.startLending w bank).store.protocol.admin.ProposalsNumbered := ⟨fun _ _ => rfl, fun _ _ => rfl⟩
  have hkeep (s : LendingState) (e : LendingEvent) (s' : LendingState)
      (hn : s.store.protocol.admin.ProposalsNumbered) (hst : lending.Step s e s') :
      s'.store.protocol.admin.ProposalsNumbered := (step_kept hst).numbered hn
  have hwithin := hr.within (I := fun s => s.store.protocol.admin.ProposalsNumbered) hstart hkeep
  refine ⟨lending_tickets.nodup hwithin, ?_, ?_, ?_, ?_⟩
  · intro t e p k hmem hk
    obtain ⟨k', hk', hkept⟩ := lending_tickets.kept hwithin hmem hk
    exact ⟨k', hk', hkept.opens, hkept.closes⟩
  · intro t e p hmem hp
    exact lending_tickets.in_window hwithin hmem hp
  · rintro later t e earlier p rfl hends
    exact lending_tickets.silent_after hwithin hends
  · rintro p hover ⟨signers, op, hexecutes, hgoes⟩
    have hn := hr.always (fun s => s.store.protocol.admin.ProposalsNumbered) hstart hkeep
    have hdone := Component.done_call (Component.exec_of_isSome hgoes)
    refine lending_tickets.not_done ⟨hn, .call s signers op⟩ hover ?_
    rw [executedProposal, hdone]
    exact hexecutes

/-- A queued action is executed once its delay has passed, when the timelock of a slash has expired. -/
theorem queued_action_ran_once :
    ∃ h s, LendingHistory h s ∧ usedKeys executedProposal h = [.queued 1] ∧ ProposalOver s (.timelocked 1) ∧
      RunOnce h s := by
  obtain ⟨d, w, bank, hr⟩ := afterDeadlines_history
  have hexecute := Component.Step.call (C := lending) afterDeadlines [] (.admin (.executeGovernanceAction 1))
  exact ⟨_, _, ⟨d, w, bank, hr.snoc hexecute⟩, by decide +kernel, by decide +kernel,
    proposals_run_once ⟨d, w, bank, hr.snoc hexecute⟩⟩

end QuorumCredit
