import QuorumCredit.AdminSet
/-!
# Who stands behind a change

Admins approve a proposal one after another, and it is executed later, by anyone.
Its list of approvals is the list of those who approved it, each once. At the
execution the code looks at no more than the length of the list: a change is
backed by the admins of that moment where those who have left since do not count
towards the threshold.
-/

open Host Function

namespace QuorumCredit

/-! ## Tables of proposals -/

namespace Table

variable {P : Type}

/-- No entry is stored beyond the counter. -/
def Numbered (t : Table P) : Prop := ∀ id, t.counter < id → t.entry id = none

/-- The approvals recorded under an id. -/
def approvals (list : P → List Address) (t : Table P) (id : Nat) : List Address := (t.entry id).elim [] list

variable {t : Table P} {list : P → List Address} {id : Nat} {p p' : P} {make : Nat → P}

theorem Numbered.store (h : t.Numbered) (hp : t.entry id = some p) : (t.store id p').Numbered := by
  intro i hi
  have hne : i ≠ id := by
    rintro rfl
    rw [h i hi] at hp
    cases hp
  rw [store_entry_of_ne t id p' hne]
  exact h i hi

theorem Numbered.add (h : t.Numbered) : (t.add make).Numbered := by
  intro i hi
  rw [add_counter] at hi
  rw [add_entry_of_ne t make (by omega)]
  exact h i (by omega)

theorem approvals_of_entry (hp : t.entry id = some p) : t.approvals list id = list p := by
  simp [approvals, hp]

/-- A proposal stored anew with one approval more. -/
theorem approvals_store_self (id : Nat) (p' : P) : (t.store id p').approvals list id = list p' :=
  approvals_of_entry (store_entry_self t id p')

theorem approvals_store_of_ne {i : Nat} (h : i ≠ id) : (t.store id p').approvals list i = t.approvals list i := by
  rw [approvals, store_entry_of_ne t id p' h, approvals]

/-- A proposal stored anew with the approvals it had. -/
theorem approvals_store (hp : t.entry id = some p) (hsame : list p' = list p) (i : Nat) :
    (t.store id p').approvals list i = t.approvals list i := by
  by_cases hi : i = id
  · subst hi
    rw [approvals_store_self, hsame, approvals_of_entry hp]
  · exact approvals_store_of_ne hi

/-- A new proposal is approved by nobody. -/
theorem approvals_add (ht : t.Numbered) (hmake : ∀ id, list (make id) = []) (i : Nat) :
    (t.add make).approvals list i = t.approvals list i := by
  by_cases hi : i = t.counter + 1
  · subst hi
    rw [approvals_of_entry (add_entry_next t make), hmake, approvals, ht _ (Nat.lt_succ_self _)]
    rfl
  · rw [approvals, add_entry_of_ne t make hi, approvals]

end Table

/-! ## Proposals -/

/-- The kinds of proposals that change the contract. Nobody approves a config change. -/
inductive ProposalKind where
  | adminAction | configUpdate | governanceAction | configChange
deriving DecidableEq, Repr

namespace AdminOp

/-- The proposal a call approves, and who approves it. -/
def approval : AdminOp → Option (ProposalKind × Nat × Address)
  | .approveAdminAction admin id => some (.adminAction, id, admin)
  | .approveConfigUpdate admin id => some (.configUpdate, id, admin)
  | .approveGovernanceAction admin id => some (.governanceAction, id, admin)
  | _ => none

/-- The proposal a call executes; one of the queue only where it asks for a multisig. -/
def executes (a : AdminStore) : AdminOp → Option (ProposalKind × Nat)
  | .executeAdminAction id => some (.adminAction, id)
  | .finalizeConfigUpdate id => some (.configUpdate, id)
  | .executeGovernanceAction id => if a.queueConfig.requireMultisig = true then some (.governanceAction, id) else none
  | .executeConfigChange id => some (.configChange, id)
  | _ => none

/-- If the call executes a proposal, it is one that `ok` holds of. -/
def ExecutesOnly (ok : ProposalKind → Nat → Prop) (a : AdminStore) (op : AdminOp) : Prop :=
  ∀ kind id, op.executes a = some (kind, id) → ok kind id

instance {ok : ProposalKind → Nat → Prop} [∀ kind id, Decidable (ok kind id)] (a : AdminStore) (op : AdminOp) :
    Decidable (op.ExecutesOnly ok a) :=
  decidable_of_iff (∀ key ∈ op.executes a, ok key.1 key.2)
    ⟨fun h kind id hkey => h (kind, id) hkey, fun h key hkey => h key.1 key.2 hkey⟩

end AdminOp

namespace AdminStore

/-- The admins who can approve now. -/
def current (a : AdminStore) : List Address := active a.revokedAdmin a.config.admins

/-- The approvals recorded for a proposal. -/
def approvals (a : AdminStore) : ProposalKind → Nat → List Address
  | .adminAction, id => a.adminActions.approvals AdminActionProposal.approvals id
  | .configUpdate, id => a.configUpdates.approvals ConfigUpdateProposal.approvals id
  | .governanceAction, id => a.governanceProposals.approvals GovernanceProposal.approvals id
  | .configChange, _ => []

/-- Those recorded who have been removed, rotated out or revoked since. -/
def departed (a : AdminStore) (kind : ProposalKind) (id : Nat) : List Address :=
  (a.approvals kind id).filter (· ∉ a.current)

/-- There are as many approvals as the threshold asks for, besides those of admins who are gone. -/
def QuorumStands (a : AdminStore) (kind : ProposalKind) (id : Nat) : Prop :=
  kind ≠ .configChange ∧ a.config.adminThreshold + (a.departed kind id).length ≤ (a.approvals kind id).length

instance (a : AdminStore) (kind : ProposalKind) (id : Nat) : Decidable (a.QuorumStands kind id) :=
  inferInstanceAs (Decidable (_ ∧ _))

end AdminStore

/-- The admin has approved the proposal in a call that went through. -/
def ApprovedBy (h : List (ProtocolState × ProtocolEvent)) (kind : ProposalKind) (id : Nat) (admin : Address) : Prop :=
  ∃ call ∈ adminCalls h, call.2.approval = some (kind, id, admin)

/-- As many different admins of this moment as the threshold asks for have approved the proposal. -/
def BackedByAdmins (h : List (ProtocolState × ProtocolEvent)) (a : AdminStore) (kind : ProposalKind) (id : Nat) :
    Prop :=
  ∃ approvers : List Address, approvers.Nodup ∧ a.config.adminThreshold ≤ approvers.length ∧
    ∀ admin ∈ approvers, admin ∈ a.current ∧ ApprovedBy h kind id admin

/-! ## What a call does to the approvals -/

/-- The entries of the tables are numbered. -/
structure AdminStore.Numbered (a : AdminStore) : Prop where
  adminActions : a.adminActions.Numbered
  configUpdates : a.configUpdates.Numbered
  governanceProposals : a.governanceProposals.Numbered

section

variable {a a' : AdminStore} {op : AdminOp}

theorem AdminStore.Numbered.congr (hn : a.Numbered) (hrecords : a'.records = a.records) : a'.Numbered := by
  have hactions : a'.adminActions = a.adminActions := congrArg AdminRecords.adminActions hrecords
  have hupdates : a'.configUpdates = a.configUpdates := congrArg AdminRecords.configUpdates hrecords
  have hqueue : a'.governanceProposals = a.governanceProposals := congrArg AdminRecords.governanceProposals hrecords
  constructor
  · rw [hactions]
    exact hn.adminActions
  · rw [hupdates]
    exact hn.configUpdates
  · rw [hqueue]
    exact hn.governanceProposals

theorem AdminStore.Numbered.effect (hn : a.Numbered) (he : AdminEffect a op a') : a'.Numbered := by
  have ⟨hactions, hupdates, hqueue⟩ := hn
  cases he with
  | other _ _ hrecords _ => exact hn.congr hrecords
  | ran hdone => exact hn.congr hdone.records
  | executedAction hp _ hdone =>
    have hafter := hn.congr hdone.records
    rw [← hdone.adminActions] at hp
    exact ⟨hafter.adminActions.store hp, hafter.configUpdates, hafter.governanceProposals⟩
  | executedQueued hp _ hdone =>
    have hafter := hn.congr hdone.records
    rw [← hdone.governanceProposals] at hp
    exact ⟨hafter.adminActions, hafter.configUpdates, hafter.governanceProposals.store hp⟩
  | proposedAction => exact ⟨hactions.add, hupdates, hqueue⟩
  | approvedAction _ hp _ => exact ⟨hactions.store hp, hupdates, hqueue⟩
  | proposedUpdate => exact ⟨hactions, hupdates.add, hqueue⟩
  | approvedUpdate _ hp _ => exact ⟨hactions, hupdates.store hp, hqueue⟩
  | finalizedUpdate hp _ => exact ⟨hactions, hupdates.store hp, hqueue⟩
  | queued => exact ⟨hactions, hupdates, hqueue.add⟩
  | approvedQueued _ hp _ => exact ⟨hactions, hupdates, hqueue.store hp⟩
  | rejectedQueued hp _ => exact ⟨hactions, hupdates, hqueue.store hp⟩
  | cancelledQueued hp => exact ⟨hactions, hupdates, hqueue.store hp⟩
  | _ => exact ⟨hactions, hupdates, hqueue⟩

/-- The approvals recorded are those in the three tables. -/
theorem AdminStore.approvals_congr {kind : ProposalKind} {id : Nat}
    (hactions : ∀ i, a'.adminActions.approvals AdminActionProposal.approvals i =
      a.adminActions.approvals AdminActionProposal.approvals i)
    (hupdates : ∀ i, a'.configUpdates.approvals ConfigUpdateProposal.approvals i =
      a.configUpdates.approvals ConfigUpdateProposal.approvals i)
    (hqueue : ∀ i, a'.governanceProposals.approvals GovernanceProposal.approvals i =
      a.governanceProposals.approvals GovernanceProposal.approvals i) :
    a'.approvals kind id = a.approvals kind id := by
  cases kind with
  | adminAction => exact hactions id
  | configUpdate => exact hupdates id
  | governanceAction => exact hqueue id
  | configChange => rfl

theorem AdminStore.approvals_of_records (hrecords : a'.records = a.records) (kind : ProposalKind) (id : Nat) :
    a'.approvals kind id = a.approvals kind id := by
  refine approvals_congr (fun i => ?_) (fun i => ?_) fun i => ?_
  · exact congrArg (fun r => r.adminActions.approvals AdminActionProposal.approvals i) hrecords
  · exact congrArg (fun r => r.configUpdates.approvals ConfigUpdateProposal.approvals i) hrecords
  · exact congrArg (fun r => r.governanceProposals.approvals GovernanceProposal.approvals i) hrecords

/-- Every other call leaves the approvals as they are. -/
theorem AdminEffect.approvals_same (hn : a.Numbered) (he : AdminEffect a op a') (hnone : op.approval = none)
    (kind : ProposalKind) (id : Nat) : a'.approvals kind id = a.approvals kind id := by
  cases he with
  | approvedAction => cases hnone
  | approvedUpdate => cases hnone
  | approvedQueued => cases hnone
  | other _ _ hrecords _ => exact AdminStore.approvals_of_records hrecords kind id
  | ran hdone => exact AdminStore.approvals_of_records hdone.records kind id
  | executedAction hp _ hdone =>
    rw [← hdone.adminActions] at hp
    rw [← AdminStore.approvals_of_records hdone.records kind id]
    exact AdminStore.approvals_congr (Table.approvals_store hp rfl) (fun _ => rfl) fun _ => rfl
  | executedQueued hp _ hdone =>
    rw [← hdone.governanceProposals] at hp
    rw [← AdminStore.approvals_of_records hdone.records kind id]
    exact AdminStore.approvals_congr (fun _ => rfl) (fun _ => rfl) (Table.approvals_store hp rfl)
  | proposedAction hmake =>
    exact AdminStore.approvals_congr (Table.approvals_add hn.adminActions hmake) (fun _ => rfl) fun _ => rfl
  | proposedUpdate hmake =>
    exact AdminStore.approvals_congr (fun _ => rfl) (Table.approvals_add hn.configUpdates fun i => (hmake i).1)
      fun _ => rfl
  | queued hmake =>
    exact AdminStore.approvals_congr (fun _ => rfl) (fun _ => rfl)
      (Table.approvals_add hn.governanceProposals fun i => (hmake i).1)
  | finalizedUpdate hp _ =>
    exact AdminStore.approvals_congr (fun _ => rfl) (Table.approvals_store hp rfl) fun _ => rfl
  | rejectedQueued hp _ =>
    exact AdminStore.approvals_congr (fun _ => rfl) (fun _ => rfl) (Table.approvals_store hp rfl)
  | cancelledQueued hp =>
    exact AdminStore.approvals_congr (fun _ => rfl) (fun _ => rfl) (Table.approvals_store hp rfl)
  | _ => exact AdminStore.approvals_congr (fun _ => rfl) (fun _ => rfl) fun _ => rfl

theorem AdminOp.approval_of_isOther (h : op.isOther = true) : op.approval = none := by
  cases op with
  | approveAdminAction | approveConfigUpdate | approveGovernanceAction => cases h
  | _ => rfl

/-- An approval is recorded once, where it belongs. -/
theorem AdminEffect.approvals_approved {kind : ProposalKind} {id : Nat} {admin : Address} (he : AdminEffect a op a')
    (happroval : op.approval = some (kind, id, admin)) :
    admin ∉ a.approvals kind id ∧ a'.approvals kind id = a.approvals kind id ++ [admin] ∧
      ∀ k i, (k, i) ≠ (kind, id) → a'.approvals k i = a.approvals k i := by
  cases he with
  | approvedAction hmem hp hnew =>
    cases happroval
    have hlist : a.approvals .adminAction id = _ := Table.approvals_of_entry hp
    refine ⟨by rwa [hlist], ?_, fun k i hne => ?_⟩
    · rw [hlist]
      exact Table.approvals_store_self ..
    · cases k with
      | adminAction => exact Table.approvals_store_of_ne fun hi => hne (by rw [hi])
      | _ => rfl
  | approvedUpdate hmem hp hnew =>
    cases happroval
    have hlist : a.approvals .configUpdate id = _ := Table.approvals_of_entry hp
    refine ⟨by rwa [hlist], ?_, fun k i hne => ?_⟩
    · rw [hlist]
      exact Table.approvals_store_self ..
    · cases k with
      | configUpdate => exact Table.approvals_store_of_ne fun hi => hne (by rw [hi])
      | _ => rfl
  | approvedQueued hmem hp hnew =>
    cases happroval
    have hlist : a.approvals .governanceAction id = _ := Table.approvals_of_entry hp
    refine ⟨by rwa [hlist], ?_, fun k i hne => ?_⟩
    · rw [hlist]
      exact Table.approvals_store_self ..
    · cases k with
      | governanceAction => exact Table.approvals_store_of_ne fun hi => hne (by rw [hi])
      | _ => rfl
  | other hother =>
    rw [AdminOp.approval_of_isOther hother] at happroval
    cases happroval
  | cancelledTimelock hop => rcases hop with ⟨_, rfl⟩ | ⟨_, rfl⟩ <;> cases happroval
  | _ => cases happroval

end

/-! ## Every run -/

section

variable {h : List (ProtocolState × ProtocolEvent)} {s : ProtocolState} {kind : ProposalKind} {id : Nat}

theorem ProtocolHistory.numbered (hr : ProtocolHistory h s) : s.store.admin.Numbered := by
  refine hr.admin_always (fun d => ?_) (fun a settings hn => hn.congr rfl) fun hn he => hn.effect he
  exact ⟨fun _ _ => rfl, fun _ _ => rfl, fun _ _ => rfl⟩

/-- The list of approvals is the list of the calls that approved the proposal, each admin once. -/
theorem ProtocolHistory.approvals_recorded (hr : ProtocolHistory h s) (kind : ProposalKind) (id : Nat) :
    (s.store.admin.approvals kind id).Nodup ∧
      ∀ admin, admin ∈ s.store.admin.approvals kind id ↔ ApprovedBy h kind id admin := by
  refine hr.calls_always (P := fun calls a => (a.approvals kind id).Nodup ∧
    ∀ admin, admin ∈ a.approvals kind id ↔ ∃ call ∈ calls, call.2.approval = some (kind, id, admin)) (fun d => ?_)
    (fun calls a settings hi => ?_) fun {h s op a'} hr hi he => ?_
  · have hnone : d.admin.approvals kind id = [] := by cases kind <;> rfl
    rw [hnone]
    simp
  · have hsame : AdminStore.approvals { a with settings } kind id = a.approvals kind id :=
      AdminStore.approvals_of_records rfl kind id
    rw [hsame]
    exact hi
  · obtain ⟨hnodup, hmem⟩ := hi
    simp only [List.exists_mem_cons_iff]
    cases happroval : op.approval with
    | none =>
      rw [AdminEffect.approvals_same hr.numbered he happroval]
      exact ⟨hnodup, by simpa using hmem⟩
    | some key =>
      obtain ⟨kind', id', admin⟩ := key
      obtain ⟨hnew, hself, hothers⟩ := AdminEffect.approvals_approved he happroval
      by_cases hkey : (kind, id) = (kind', id')
      · cases hkey
        rw [hself]
        refine ⟨List.nodup_append.2 ⟨hnodup, List.nodup_singleton _, ?_⟩, fun x => ?_⟩
        · rintro x hx y hy rfl
          rw [List.mem_singleton.1 hy] at hx
          exact hnew hx
        · simp [hmem, eq_comm, or_comm]
      · rw [hothers kind id hkey]
        refine ⟨hnodup, fun x => ?_⟩
        have hother : some (kind', id', admin) ≠ some (kind, id, x) := by
          intro heq
          cases heq
          exact hkey rfl
        simp [hmem, hother]

/-- A proposal has its backers exactly where its quorum stands without those who are gone. -/
theorem ProtocolHistory.backed_iff (hr : ProtocolHistory h s) :
    BackedByAdmins h s.store.admin kind id ↔
      s.store.admin.config.adminThreshold + (s.store.admin.departed kind id).length ≤
        (s.store.admin.approvals kind id).length := by
  obtain ⟨hnodup, hmem⟩ := hr.approvals_recorded kind id
  let staying := (s.store.admin.approvals kind id).filter (· ∈ s.store.admin.current)
  have hsplit : staying.length + (s.store.admin.departed kind id).length =
      (s.store.admin.approvals kind id).length := by
    have hlength := List.length_eq_length_filter_add (l := s.store.admin.approvals kind id) (· ∈ s.store.admin.current)
    simpa [staying, AdminStore.departed] using hlength.symm
  constructor
  · rintro ⟨approvers, hdistinct, henough, hall⟩
    have hsub : approvers ⊆ staying := by
      intro x hx
      obtain ⟨hcurrent, happroved⟩ := hall x hx
      exact List.mem_filter.2 ⟨(hmem x).2 happroved, by simpa using hcurrent⟩
    have hle : approvers.length ≤ staying.length := (List.subperm_of_subset hdistinct hsub).length_le
    omega
  · intro h
    refine ⟨staying, hnodup.filter _, by omega, fun x hx => ?_⟩
    obtain ⟨hlisted, hcurrent⟩ := List.mem_filter.1 hx
    exact ⟨by simpa using hcurrent, (hmem x).1 hlisted⟩

/-- The quorum of a config change never stands: the threshold is not zero, and nobody has approved it. -/
theorem ProtocolHistory.backed_iff_stands (hr : ProtocolHistory h s) :
    BackedByAdmins h s.store.admin kind id ↔ s.store.admin.QuorumStands kind id := by
  rw [hr.backed_iff, AdminStore.QuorumStands]
  constructor
  · intro henough
    refine ⟨?_, henough⟩
    rintro rfl
    have hpos := hr.threshold_pos
    have hnone : s.store.admin.approvals .configChange id = [] := rfl
    rw [hnone, List.length_nil] at henough
    omega
  · exact And.right

/-- In every run, all proposals that are executed are backed by admins of that
moment exactly where the quorum of each still stands. -/
theorem multisig_backed (hr : ProtocolHistory h s) :
    Throughout (fun h => protocol.WhenDone (OnAdmin fun a op => op.ExecutesOnly (BackedByAdmins h a) a)) h ↔
      Along (protocol.WhenDone (OnAdmin fun a op => op.ExecutesOnly a.QuorumStands a)) h := by
  rw [along_iff_throughout]
  obtain ⟨d, w, bank, hr⟩ := hr
  refine hr.throughout_congr fun {h s e} hr => Component.whenDone_congr (fun op => ?_) e
  cases op with
  | core op => exact Iff.rfl
  | admin op => exact forall₃_congr fun kind id _ => ProtocolHistory.backed_iff_stands ⟨d, w, bank, hr⟩

end

/-! ## Two runs -/

/-- The first admin proposes a minimum stake, and another approves it with the first. -/
def proposedStake (other : Address) : List (List Address × ProtocolOp) :=
  [([1], .admin (.proposeAdminAction 1 (.setMinStake 5))), ([1], .admin (.approveAdminAction 1 1)),
   ([other], .admin (.approveAdminAction other 1))]

theorem multisig_backed_executed :
    Throughout (fun h => protocol.WhenDone (OnAdmin fun a op => op.ExecutesOnly (BackedByAdmins h a) a))
      (protocol.trace adminStart [] (proposedStake 2 ++ [([], .admin (.executeAdminAction 1))])) :=
  (multisig_backed (adminStart_history _)).2 (by decide +kernel)

/-- One of the two who approved is removed, and the proposal is executed all the same. -/
theorem removed_admin_counts :
    ¬ ∀ h s, ProtocolHistory h s →
      Throughout (fun h => protocol.WhenDone (OnAdmin fun a op => op.ExecutesOnly (BackedByAdmins h a) a)) h := by
  intro hclaim
  let calls := proposedStake 3 ++ [([1, 2], .admin (.direct [1, 2] (.removeAdmin 3)))]
  have hbefore := adminStart_history calls
  have ⟨d, w, bank, hrun⟩ := hbefore
  have hafter := hclaim _ _ ⟨d, w, bank, hrun.snoc (.call _ [] (.admin (.executeAdminAction 1)))⟩
  have hdone : (protocol.exec (protocol.play adminStart calls) [] (.admin (.executeAdminAction 1))).isSome = true := by
    decide +kernel
  have hbacked := hafter.2 _ (Component.done_call (Component.exec_of_isSome hdone)) .adminAction 1 rfl
  exact absurd (hbefore.backed_iff.1 hbacked) (by decide +kernel)

end QuorumCredit
