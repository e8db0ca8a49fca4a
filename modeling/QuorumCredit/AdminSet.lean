import QuorumCredit.AdminEffects
import QuorumCredit.Host.Board
/-!
# The admin set

The contract can be administered while its admins are pairwise different and as
many of them as the threshold asks for have not been revoked. The calls that
write the list or the threshold check less than that: they count revoked keys
with the others, and what was checked when a change was proposed is not checked
again. Here is what each of them needs, and it is enough for every run.
-/

open Host Function

namespace QuorumCredit

/-- No admin is listed twice, and the threshold is one the admins that are not revoked reach. -/
def AdminStore.AdminsWellFormed (a : AdminStore) : Prop :=
  Board a.revokedAdmin a.config.admins a.config.adminThreshold

/-- Approval does not need every admin that is not revoked. -/
def AdminStore.HasSpare (a : AdminStore) : Prop :=
  a.config.adminThreshold < (active a.revokedAdmin a.config.admins).length

/-- An action's change leaves the admin set well formed. -/
def GovernanceAction.KeepsAdmins (a : AdminStore) : GovernanceAction → Prop
  | .setAdminThreshold threshold => threshold ≤ (active a.revokedAdmin a.config.admins).length
  | .removeAdmin adminToRemove => a.revokedAdmin adminToRemove = true ∨ a.HasSpare
  | .rotateAdmin oldAdmin newAdmin =>
    a.revokedAdmin newAdmin = false ∨ a.revokedAdmin oldAdmin = true ∨ a.HasSpare
  | _ => True

/-- A call's change leaves the admin set well formed. -/
def AdminOp.KeepsAdmins (a : AdminStore) : AdminOp → Prop
  | .direct _ action => action.KeepsAdmins a
  | .setConfig _ cfg => cfg.adminThreshold ≤ (active a.revokedAdmin cfg.admins).length
  | .acceptAdmin => ∀ newAdmin ∈ a.pendingAdmin, newAdmin ∉ a.config.admins
  | .claimSuccessorAdmin => ∀ successor ∈ a.config.successorAdmin, successor ∉ a.config.admins
  | .revokeAdmin .. => a.HasSpare ∨ ∀ x ∈ a.config.admins, a.revokedAdmin x = false
  | .executeAdminAction id => ∀ p ∈ a.adminActions.entry id, p.actionType.KeepsAdmins a
  | .finalizeConfigUpdate id =>
    ∀ p ∈ a.configUpdates.entry id, p.newValue ≤ (active a.revokedAdmin a.config.admins).length
  | .executeGovernanceAction id => ∀ p ∈ a.governanceProposals.entry id, p.action.KeepsAdmins a
  | .executeConfigChange id =>
    ∀ p ∈ a.timelocks.entry id, ∀ cfg ∈ p.action.newConfig,
      cfg.adminThreshold ≤ (active a.revokedAdmin cfg.admins).length
  | .finalizeAdminRemoval id =>
    ∀ p ∈ a.adminRemovals.entry id, a.revokedAdmin p.adminToRemove = true ∨ a.HasSpare
  | _ => True

instance (a : AdminStore) : Decidable a.AdminsWellFormed := inferInstanceAs (Decidable (Board ..))

instance (a : AdminStore) : Decidable a.HasSpare := inferInstanceAs (Decidable (_ < _))

instance (a : AdminStore) (action : GovernanceAction) : Decidable (action.KeepsAdmins a) := by
  apply action.casesOn (motive := fun action => Decidable (action.KeepsAdmins a)) <;> intros <;>
    (unfold GovernanceAction.KeepsAdmins; infer_instance)

instance (a : AdminStore) (op : AdminOp) : Decidable (op.KeepsAdmins a) := by
  apply op.casesOn (motive := fun op => Decidable (op.KeepsAdmins a)) <;> intros <;>
    (unfold AdminOp.KeepsAdmins; infer_instance)

/-! ## What is proposed -/

/-- What was checked of the changes that are proposed. -/
structure AdminStore.ProposalsSound (a : AdminStore) : Prop where
  updates : ∀ id p, a.configUpdates.entry id = some p → 1 ≤ p.newValue
  changes : ∀ id p cfg, a.timelocks.entry id = some p → p.action.newConfig = some cfg →
    cfg.admins.Nodup ∧ 1 ≤ cfg.adminThreshold

namespace AdminStore.ProposalsSound

variable {a a' : AdminStore} {op : AdminOp}

/-- What only depends on the two tables. -/
theorem congr (hi : a.ProposalsSound) (hupdates : a'.configUpdates = a.configUpdates)
    (htimelocks : a'.timelocks = a.timelocks) : a'.ProposalsSound := by
  constructor
  · rw [hupdates]
    exact hi.updates
  · rw [htimelocks]
    exact hi.changes

theorem storeUpdate (hi : a.ProposalsSound) {id : Nat} {p p' : ConfigUpdateProposal}
    (hp : a.configUpdates.entry id = some p) (hupdates : a'.configUpdates = a.configUpdates.store id p')
    (htimelocks : a'.timelocks = a.timelocks) (hsame : p'.newValue = p.newValue) : a'.ProposalsSound := by
  constructor
  · intro i q hq
    rw [hupdates] at hq
    rcases Table.entry_of_store hq with ⟨rfl, rfl⟩ | ⟨-, hq⟩
    · rw [hsame]
      exact hi.updates _ p hp
    · exact hi.updates i q hq
  · rw [htimelocks]
    exact hi.changes

theorem storeTimelock (hi : a.ProposalsSound) {id : Nat} {p p' : TimelockProposal}
    (hp : a.timelocks.entry id = some p) (hupdates : a'.configUpdates = a.configUpdates)
    (htimelocks : a'.timelocks = a.timelocks.store id p') (hsame : p'.action = p.action) : a'.ProposalsSound := by
  constructor
  · rw [hupdates]
    exact hi.updates
  · intro i q cfg hq
    rw [htimelocks] at hq
    rcases Table.entry_of_store hq with ⟨rfl, rfl⟩ | ⟨-, hq⟩
    · rw [hsame]
      exact hi.changes _ p cfg hp
    · exact hi.changes i q cfg hq

theorem effect (hi : a.ProposalsSound) (he : AdminEffect a op a') : a'.ProposalsSound := by
  cases he with
  | other _ _ hrecords _ =>
    exact hi.congr (congrArg AdminRecords.configUpdates hrecords) (congrArg AdminRecords.timelocks hrecords)
  | ran hdone => exact hi.congr hdone.configUpdates hdone.timelocks
  | executedAction _ _ hdone => exact hi.congr hdone.configUpdates hdone.timelocks
  | executedQueued _ _ hdone => exact hi.congr hdone.configUpdates hdone.timelocks
  | proposedUpdate hmake =>
    refine ⟨fun i q hq => ?_, hi.changes⟩
    rcases Table.entry_of_add hq with ⟨-, rfl⟩ | ⟨-, hq⟩
    · exact (hmake i).2
    · exact hi.updates i q hq
  | approvedUpdate _ hp _ => exact hi.storeUpdate hp rfl rfl rfl
  | finalizedUpdate hp _ => exact hi.storeUpdate hp rfl rfl rfl
  | proposedChange hnodup hthreshold hmake =>
    refine ⟨hi.updates, fun i q cfg hq hcfg => ?_⟩
    rcases Table.entry_of_add hq with ⟨-, rfl⟩ | ⟨-, hq⟩
    · rw [hmake i] at hcfg
      cases hcfg
      exact ⟨hnodup, hthreshold.1⟩
    · exact hi.changes i q cfg hq hcfg
  | executedChange hp _ => exact hi.storeTimelock hp rfl rfl rfl
  | cancelledTimelock _ hp => exact hi.storeTimelock hp rfl rfl rfl
  | _ => exact hi.congr rfl rfl

end AdminStore.ProposalsSound

theorem ProtocolHistory.proposalsSound {h : List (ProtocolState × ProtocolEvent)} {s : ProtocolState}
    (hr : ProtocolHistory h s) : s.store.admin.ProposalsSound := by
  refine hr.admin_always (fun d => ?_) (fun a settings hi => hi.congr rfl rfl) fun hi he => hi.effect he
  constructor
  · intro id p hp
    cases hp
  · intro id p cfg hp
    cases hp

section

variable {a a' : AdminStore} {op : AdminOp} {action : GovernanceAction}

theorem GovernanceAction.Done.threshold_pos (hd : action.Done a a') (hpos : 1 ≤ a.config.adminThreshold) :
    1 ≤ a'.config.adminThreshold := by
  have hchecked := hd.checked
  rw [hd.config]
  cases action with
  | setAdminThreshold threshold => exact Nat.one_le_iff_ne_zero.2 hchecked.1
  | _ => exact hpos

/-- No call leaves a threshold of zero. -/
theorem AdminEffect.threshold_pos (hsound : a.ProposalsSound) (hpos : 1 ≤ a.config.adminThreshold)
    (he : AdminEffect a op a') : 1 ≤ a'.config.adminThreshold := by
  cases he with
  | other _ halike _ _ =>
    rw [halike.adminThreshold]
    exact hpos
  | ran hdone => exact hdone.threshold_pos hpos
  | executedAction _ _ hdone => exact hdone.threshold_pos hpos
  | executedQueued _ _ hdone => exact hdone.threshold_pos hpos
  | configured hcfg => exact hcfg.threshold.1
  | @revoked _ target hmem _ htwo =>
    have hlength : (a.config.admins.erase target).length + 1 = a.config.admins.length := List.length_erase_add_one hmem
    exact Nat.le_min.2 ⟨hpos, by omega⟩
  | finalizedUpdate hp _ => exact hsound.updates _ _ hp
  | executedChange hp hcfg => exact (hsound.changes _ _ _ hp hcfg).2
  | finalizedRate _ hcfg => rcases hcfg with ⟨-, rfl⟩ | ⟨-, rfl⟩ <;> exact hpos
  | _ => exact hpos

end

theorem ProtocolHistory.threshold_pos {h : List (ProtocolState × ProtocolEvent)} {s : ProtocolState}
    (hr : ProtocolHistory h s) : 1 ≤ s.store.admin.config.adminThreshold :=
  hr.calls_always (P := fun _ a => 1 ≤ a.config.adminThreshold) (fun d => d.threshold.1) (fun _ _ _ hpos => hpos)
    fun hr hpos he => he.threshold_pos hr.proposalsSound hpos

/-! ## One call -/

/-- The list after a rotation has the new admin in the old one's place. -/
theorem replaceAdmin_perm {old new : Address} {admins : List Address} (h : old ∈ admins) :
    (Admin.replaceAdmin old new admins).Perm (new :: admins.erase old) := by
  induction admins with
  | nil => cases h
  | cons a rest ih =>
    by_cases ha : a = old
    · subst ha
      simp [Admin.replaceAdmin]
    · have hrest : old ∈ rest := by
        rcases List.mem_cons.1 h with rfl | hrest
        · exact absurd rfl ha
        · exact hrest
      rw [Admin.replaceAdmin, if_neg ha, List.erase_cons_tail (by simpa using ha)]
      exact ((ih hrest).cons a).trans (List.Perm.swap new a _)

section

variable {a a' : AdminStore} {op : AdminOp} {action : GovernanceAction}

/-- An action leaves the admin set well formed exactly where it meets its condition. -/
theorem GovernanceAction.Done.admins_iff (hw : a.AdminsWellFormed) (hd : action.Done a a') :
    a'.AdminsWellFormed ↔ action.KeepsAdmins a := by
  have hchecked := hd.checked
  unfold AdminStore.AdminsWellFormed
  rw [hd.config, hd.revokedAdmin]
  cases action with
  | setAdminThreshold threshold => exact hw.threshold_iff (Nat.one_le_iff_ne_zero.2 hchecked.1)
  | addAdmin newAdmin => exact iff_of_true (hw.join_iff.2 hchecked) trivial
  | removeAdmin adminToRemove => exact hw.leave_iff hchecked.1
  | rotateAdmin oldAdmin newAdmin =>
    obtain ⟨-, hnew, hold⟩ := hchecked
    exact (Board.perm_iff (replaceAdmin_perm hold)).trans (hw.replace_iff hold hnew)
  | _ => exact iff_of_true hw trivial

theorem AdminOp.keepsAdmins_of_isOther (h : op.isOther = true) : op.KeepsAdmins a := by
  cases op <;> trivial

/-- The admin set only depends on the list, the threshold and the revocations. -/
theorem AdminStore.AdminsWellFormed.congr (hw : a.AdminsWellFormed) (hadmins : a'.config.admins = a.config.admins)
    (hthreshold : a'.config.adminThreshold = a.config.adminThreshold) (hrevoked : a'.revokedAdmin = a.revokedAdmin) :
    a'.AdminsWellFormed := by
  unfold AdminStore.AdminsWellFormed
  rw [hadmins, hthreshold, hrevoked]
  exact hw

/-- A call that goes through leaves the admin set well formed exactly where it meets its condition. -/
theorem AdminEffect.admins_iff (hsound : a.ProposalsSound) (hw : a.AdminsWellFormed) (he : AdminEffect a op a') :
    a'.AdminsWellFormed ↔ op.KeepsAdmins a := by
  cases he with
  | other hother halike hrecords _ =>
    exact iff_of_true
      (hw.congr halike.admins halike.adminThreshold (congrArg AdminRecords.revokedAdmin hrecords))
      (AdminOp.keepsAdmins_of_isOther hother)
  | ran hdone => exact hdone.admins_iff hw
  | configured hcfg =>
    exact ⟨fun h => h.enough, fun h => ⟨hcfg.nodup, hcfg.threshold.1, h⟩⟩
  | accepted hpending =>
    simp only [AdminOp.KeepsAdmins, hpending, Option.mem_some_iff, forall_eq']
    exact hw.join_iff
  | claimed hsuccessor =>
    simp only [AdminOp.KeepsAdmins, hsuccessor, Option.mem_some_iff, forall_eq']
    exact hw.join_iff
  | revoked hmem hactive htwo => exact hw.expel_iff hmem hactive htwo
  | executedAction hp _ hdone =>
    have hiff := hdone.admins_iff hw
    simp only [AdminOp.KeepsAdmins, hp, Option.mem_some_iff, forall_eq']
    exact hiff
  | executedQueued hp _ hdone =>
    have hiff := hdone.admins_iff hw
    simp only [AdminOp.KeepsAdmins, hp, Option.mem_some_iff, forall_eq']
    exact hiff
  | finalizedUpdate hp _ =>
    simp only [AdminOp.KeepsAdmins, hp, Option.mem_some_iff, forall_eq']
    exact hw.threshold_iff (hsound.updates _ _ hp)
  | executedChange hp hcfg =>
    simp only [AdminOp.KeepsAdmins, hp, hcfg, Option.mem_some_iff, forall_eq']
    obtain ⟨hnodup, hpositive⟩ := hsound.changes _ _ _ hp hcfg
    exact ⟨fun h => h.enough, fun h => ⟨hnodup, hpositive, h⟩⟩
  | finalizedRemoval hp hmem _ =>
    simp only [AdminOp.KeepsAdmins, hp, Option.mem_some_iff, forall_eq']
    exact hw.leave_iff hmem
  | cancelledTimelock hop _ =>
    rcases hop with ⟨signers, rfl⟩ | ⟨caller, rfl⟩ <;> exact iff_of_true hw trivial
  | finalizedRate _ hcfg =>
    rcases hcfg with ⟨-, rfl⟩ | ⟨-, rfl⟩ <;> exact iff_of_true hw trivial
  | _ => exact iff_of_true hw trivial

/-! ## Every run -/

theorem Deployment.adminsWellFormed (d : Deployment) : d.admin.AdminsWellFormed := by
  refine ⟨d.nodup, d.threshold.1, ?_⟩
  have hactive : d.admins.length ≤ (active d.admin.revokedAdmin d.admins).length :=
    length_le_active.2 fun _ _ => rfl
  exact d.threshold.2.trans hactive

/-- The admin set is well formed after every step of a run exactly where all
calls of the run that go through meet their condition. -/
theorem admin_set_well_formed {h : List (ProtocolState × ProtocolEvent)} {s : ProtocolState}
    (hr : ProtocolHistory h s) :
    Always (fun _ s => s.store.admin.AdminsWellFormed) h s ↔
      Along (protocol.WhenDone (OnAdmin fun a op => op.KeepsAdmins a)) h := by
  refine hr.admin_iff ProtocolHistory.proposalsSound Deployment.adminsWellFormed ?_ AdminEffect.admins_iff
  exact fun a settings hw => hw.congr rfl rfl rfl

end

/-! ## A stale threshold -/

/-- Three approvals are to be asked for, two admins agree, and the third admin is removed. -/
def staleThreshold : List (List Address × ProtocolOp) :=
  [([1], .admin (.proposeConfigUpdate 1 .adminThreshold 3)), ([1], .admin (.approveConfigUpdate 1 1)),
   ([2], .admin (.approveConfigUpdate 2 1)), ([1, 2], .admin (.direct [1, 2] (.removeAdmin 3)))]

theorem staleThreshold_history : ProtocolHistory (protocol.trace adminStart [] staleThreshold)
    (protocol.play adminStart staleThreshold) :=
  adminStart_history staleThreshold

theorem admin_set_well_formed_removed :
    Always (fun _ s => s.store.admin.AdminsWellFormed) (protocol.trace adminStart [] staleThreshold)
      (protocol.play adminStart staleThreshold) :=
  (admin_set_well_formed staleThreshold_history).2 (by decide +kernel)

/-- Two admins are left, and three approvals are asked for. -/
theorem stale_threshold_locks_out :
    ¬ ∀ h s, ProtocolHistory h s → s.store.admin.AdminsWellFormed := by
  intro hclaim
  have hwell := hclaim _ _ (adminStart_history (staleThreshold ++ [([], .admin (.finalizeConfigUpdate 1))]))
  exact absurd hwell (by decide +kernel)

end QuorumCredit
