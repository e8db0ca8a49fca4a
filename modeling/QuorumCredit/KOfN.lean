import QuorumCredit.AdminSet
/-!
# Approval is k of n

A call that passes a gate of the administration has been authorised by as many
different admins as the gate's threshold asks for. Two of the gates refuse
revoked keys; the one for operations does not, and revoked keys come back where
a call registers them again. In a run in which none does, all three gates hold.
-/

open Host Function

namespace QuorumCredit

/-! ## The gates -/

inductive ApprovalGate where
  | approval
  | operation (operationType : AdminOperationType)
  | permission (raise : ContractError → Failure) (requiredPermission : AdminPermission)

namespace ApprovalGate

/-- The function of each gate. -/
def run : ApprovalGate → List Address → AdminTx Unit
  | .approval => Admin.requireAdminApproval
  | .operation operationType => fun signers => Admin.requireAdminApprovalForOperation signers operationType
  | .permission raise requiredPermission => fun signers =>
    Admin.requireAdminApprovalWithPermission raise signers requiredPermission

/-- The threshold that applies. -/
def threshold (a : AdminStore) : ApprovalGate → Nat
  | .approval | .permission .. => a.config.adminThreshold
  | .operation operationType => a.requiredThreshold operationType

end ApprovalGate

/-- At least `k` different registered admins, none of them revoked, are in the list and have authorised the call. -/
structure KOfN (ctx : AdminContext) (a : AdminStore) (k : Nat) (signers : List Address) : Prop where
  positive : 1 ≤ k
  approved : ∃ approvers : List Address, approvers ⊆ signers ∧ approvers.Nodup ∧ k ≤ approvers.length ∧
    ∀ x ∈ approvers, x ∈ a.config.admins ∧ a.revokedAdmin x = false ∧ x ∈ ctx.signers

/-! ## Who is registered -/

/-- No admin in the list has been revoked. -/
def AdminStore.Unrevoked (a : AdminStore) : Prop := ∀ x ∈ a.config.admins, a.revokedAdmin x = false

/-- The action registers no revoked key. -/
def GovernanceAction.RegistersUnrevoked (a : AdminStore) : GovernanceAction → Prop
  | .addAdmin newAdmin | .rotateAdmin _ newAdmin => a.revokedAdmin newAdmin = false
  | _ => True

/-- The call registers no revoked key, and a key it revokes was registered once. -/
def AdminOp.RegistersUnrevoked (a : AdminStore) : AdminOp → Prop
  | .direct _ action => action.RegistersUnrevoked a
  | .setConfig _ cfg => ∀ x ∈ cfg.admins, a.revokedAdmin x = false
  | .acceptAdmin => ∀ newAdmin ∈ a.pendingAdmin, a.revokedAdmin newAdmin = false
  | .claimSuccessorAdmin => ∀ successor ∈ a.config.successorAdmin, a.revokedAdmin successor = false
  | .revokeAdmin _ targetAdmin => targetAdmin ∉ a.config.admins.erase targetAdmin
  | .executeAdminAction id => ∀ p ∈ a.adminActions.entry id, p.actionType.RegistersUnrevoked a
  | .executeGovernanceAction id => ∀ p ∈ a.governanceProposals.entry id, p.action.RegistersUnrevoked a
  | .executeConfigChange id =>
    ∀ p ∈ a.timelocks.entry id, ∀ cfg ∈ p.action.newConfig, ∀ x ∈ cfg.admins, a.revokedAdmin x = false
  | _ => True

instance (a : AdminStore) (action : GovernanceAction) : Decidable (action.RegistersUnrevoked a) := by
  apply action.casesOn (motive := fun action => Decidable (action.RegistersUnrevoked a)) <;> intros <;>
    (unfold GovernanceAction.RegistersUnrevoked; infer_instance)

instance (a : AdminStore) (op : AdminOp) : Decidable (op.RegistersUnrevoked a) := by
  apply op.casesOn (motive := fun op => Decidable (op.RegistersUnrevoked a)) <;> intros <;>
    (unfold AdminOp.RegistersUnrevoked; infer_instance)

section

variable {a a' : AdminStore} {op : AdminOp} {action : GovernanceAction}

theorem AdminStore.Unrevoked.congr (hu : a.Unrevoked) (hadmins : a'.config.admins = a.config.admins)
    (hrevoked : a'.revokedAdmin = a.revokedAdmin) : a'.Unrevoked := by
  unfold AdminStore.Unrevoked
  rw [hadmins, hrevoked]
  exact hu

/-- One more is registered. -/
theorem AdminStore.Unrevoked.join_iff (hu : a.Unrevoked) {x : Address} :
    (∀ y ∈ a.config.admins ++ [x], a.revokedAdmin y = false) ↔ a.revokedAdmin x = false := by
  simp only [List.forall_mem_append, List.forall_mem_singleton]
  exact and_iff_right hu

/-- Some leave. -/
theorem AdminStore.Unrevoked.leave (hu : a.Unrevoked) (x : Address) :
    ∀ y ∈ a.config.admins.erase x, a.revokedAdmin y = false :=
  fun y hy => hu y (List.mem_of_mem_erase hy)

/-- One is revoked and leaves, unless registered twice. -/
theorem AdminStore.Unrevoked.expel_iff (hu : a.Unrevoked) (x : Address) :
    (∀ y ∈ a.config.admins.erase x, update a.revokedAdmin x true y = false) ↔ x ∉ a.config.admins.erase x := by
  constructor
  · intro h hmem
    have htwice := h x hmem
    rw [update_self] at htwice
    cases htwice
  · intro hgone y hy
    have hne : y ≠ x := by
      rintro rfl
      exact hgone hy
    rw [update_of_ne hne]
    exact hu.leave x y hy

theorem GovernanceAction.Done.unrevoked_iff (hu : a.Unrevoked) (hd : action.Done a a') :
    a'.Unrevoked ↔ action.RegistersUnrevoked a := by
  have hchecked := hd.checked
  unfold AdminStore.Unrevoked
  rw [hd.config, hd.revokedAdmin]
  cases action with
  | addAdmin newAdmin => exact hu.join_iff
  | removeAdmin adminToRemove => exact iff_of_true (hu.leave adminToRemove) trivial
  | rotateAdmin oldAdmin newAdmin =>
    have hmem : ∀ y, y ∈ Admin.replaceAdmin oldAdmin newAdmin a.config.admins ↔
        y = newAdmin ∨ y ∈ a.config.admins.erase oldAdmin :=
      fun y => (replaceAdmin_perm hchecked.2.2).mem_iff.trans List.mem_cons
    constructor
    · intro h
      exact h newAdmin ((hmem newAdmin).2 (.inl rfl))
    · intro hnew y hy
      rcases (hmem y).1 hy with rfl | hy
      · exact hnew
      · exact hu.leave oldAdmin y hy
  | _ => exact iff_of_true hu trivial

theorem AdminOp.registersUnrevoked_of_isOther (h : op.isOther = true) : op.RegistersUnrevoked a := by
  cases op <;> trivial

/-- A call that goes through leaves no revoked key registered exactly where it meets its condition. -/
theorem AdminEffect.unrevoked_iff (hu : a.Unrevoked) (he : AdminEffect a op a') :
    a'.Unrevoked ↔ op.RegistersUnrevoked a := by
  cases he with
  | other hother halike hrecords _ =>
    exact iff_of_true (hu.congr halike.admins (congrArg AdminRecords.revokedAdmin hrecords))
      (AdminOp.registersUnrevoked_of_isOther hother)
  | ran hdone => exact hdone.unrevoked_iff hu
  | configured _ => exact Iff.rfl
  | accepted hpending =>
    simp only [AdminOp.RegistersUnrevoked, hpending, Option.mem_some_iff, forall_eq']
    exact hu.join_iff
  | claimed hsuccessor =>
    simp only [AdminOp.RegistersUnrevoked, hsuccessor, Option.mem_some_iff, forall_eq']
    exact hu.join_iff
  | @revoked _ target _ _ _ => exact hu.expel_iff target
  | executedAction hp _ hdone =>
    have hiff := hdone.unrevoked_iff hu
    simp only [AdminOp.RegistersUnrevoked, hp, Option.mem_some_iff, forall_eq']
    exact hiff
  | executedQueued hp _ hdone =>
    have hiff := hdone.unrevoked_iff hu
    simp only [AdminOp.RegistersUnrevoked, hp, Option.mem_some_iff, forall_eq']
    exact hiff
  | executedChange hp hcfg =>
    simp only [AdminOp.RegistersUnrevoked, hp, hcfg, Option.mem_some_iff, forall_eq']
    exact Iff.rfl
  | @finalizedRemoval _ p _ _ _ => exact iff_of_true (hu.leave p.adminToRemove) trivial
  | cancelledTimelock hop _ =>
    rcases hop with ⟨signers, rfl⟩ | ⟨caller, rfl⟩ <;> exact iff_of_true hu trivial
  | finalizedRate _ hcfg =>
    rcases hcfg with ⟨-, rfl⟩ | ⟨-, rfl⟩ <;> exact iff_of_true hu trivial
  | _ => exact iff_of_true hu trivial

/-! ## The thresholds -/

/-- The thresholds of the tiers are not zero. -/
def AdminStore.TiersPositive (a : AdminStore) : Prop :=
  ∀ tiers ∈ a.multiTierThresholds, ∀ operationType, 1 ≤ tiers.getThreshold operationType

theorem AdminStore.TiersPositive.congr (ht : a.TiersPositive) (hsame : a'.multiTierThresholds = a.multiTierThresholds) :
    a'.TiersPositive := by
  unfold AdminStore.TiersPositive
  rw [hsame]
  exact ht

theorem AdminEffect.tiersPositive (ht : a.TiersPositive) (he : AdminEffect a op a') : a'.TiersPositive := by
  cases he with
  | other _ _ hrecords _ => exact ht.congr (congrArg AdminRecords.multiTierThresholds hrecords)
  | ran hdone => exact ht.congr hdone.multiTierThresholds
  | executedAction _ _ hdone => exact ht.congr hdone.multiTierThresholds
  | executedQueued _ _ hdone => exact ht.congr hdone.multiTierThresholds
  | tiered hpositive =>
    intro tiers htiers operationType
    cases htiers
    obtain ⟨hstandard, hhigh, hcritical⟩ := hpositive
    cases operationType with
    | standard => exact hstandard
    | highRisk => exact hhigh
    | critical => exact hcritical
  | _ => exact ht

end

section

variable {h : List (ProtocolState × ProtocolEvent)} {s : ProtocolState}

/-- No threshold is ever zero. -/
theorem ProtocolHistory.gate_positive (hr : ProtocolHistory h s) (gate : ApprovalGate) :
    1 ≤ gate.threshold s.store.admin := by
  have hpos := hr.threshold_pos
  have htiers : s.store.admin.TiersPositive := by
    refine hr.admin_always (fun d tiers htiers => ?_) (fun _ _ ht => ht.congr rfl) fun ht he => he.tiersPositive ht
    cases htiers
  cases gate with
  | approval => exact hpos
  | permission raise requiredPermission => exact hpos
  | operation operationType =>
    have hthreshold : ApprovalGate.threshold s.store.admin (.operation operationType) =
        s.store.admin.requiredThreshold operationType := rfl
    rw [hthreshold, AdminStore.requiredThreshold]
    split
    case h_1 tiers hsome => exact htiers tiers hsome operationType
    case h_2 => exact hpos

/-! ## Passing a gate -/

variable {ctx : AdminContext} {g : Governed} {signers : List Address}

/-- What passing a gate takes: enough signers, all registered, and each authorises the call. -/
theorem ApprovalGate.passed {gate : ApprovalGate} (hgate : Goes (gate.run signers) ctx g fun _ _ => True) :
    gate.threshold g.admin ≤ signers.length ∧ (∀ x ∈ signers, x ∈ g.admin.config.admins) ∧
      g.CanAuthorise ctx signers := by
  cases gate with
  | approval =>
    obtain ⟨⟨henough, heach, hauth⟩, -⟩ := (goes_requireAdminApproval signers).1 hgate
    exact ⟨henough, fun x hx => (heach x hx).1, hauth⟩
  | operation operationType =>
    obtain ⟨⟨henough, heach, hauth⟩, -⟩ := (goes_requireAdminApprovalForOperation signers operationType).1 hgate
    exact ⟨henough, heach, hauth⟩
  | permission raise requiredPermission =>
    obtain ⟨h, -⟩ := (goes_requireAdminApprovalWithPermission raise signers requiredPermission).1 hgate
    exact ⟨h.enough, h.registered, h.toCanAuthorise⟩

/-- In every reachable state, a call that passes a gate is approved k of n exactly
where enough of its signers have not been revoked. -/
theorem ProtocolHistory.passed_iff (hr : ProtocolHistory h s) (hg : g.admin = s.store.admin) {gate : ApprovalGate}
    (hgate : Goes (gate.run signers) ctx g fun _ _ => True) :
    KOfN ctx g.admin (gate.threshold g.admin) signers ↔
      gate.threshold g.admin ≤ (active g.admin.revokedAdmin signers).length := by
  obtain ⟨-, hregistered, hauth⟩ := ApprovalGate.passed hgate
  constructor
  · rintro ⟨-, approvers, hsub, hnodup, henough, heach⟩
    have hactive : approvers ⊆ active g.admin.revokedAdmin signers :=
      fun x hx => mem_active.2 ⟨hsub hx, (heach x hx).2.1⟩
    exact henough.trans (List.subperm_of_subset hnodup hactive).length_le
  · intro henough
    refine ⟨?_, active g.admin.revokedAdmin signers, fun x hx => (mem_active.1 hx).1, hauth.nodup.filter _, henough,
      fun x hx => ?_⟩
    · rw [hg]
      exact hr.gate_positive gate
    · obtain ⟨hx, hunrevoked⟩ := mem_active.1 hx
      exact ⟨hregistered x hx, hunrevoked, hauth.signed x hx⟩

/-- In a run in which no revoked key is registered again, a call that passes any
of the gates is approved by its threshold of different admins, none of them revoked. -/
theorem admin_approval_k_of_n (hr : ProtocolHistory h s)
    (hok : Along (protocol.WhenDone (OnAdmin fun a op => op.RegistersUnrevoked a)) h) (hg : g.admin = s.store.admin)
    {gate : ApprovalGate} (hgate : Goes (gate.run signers) ctx g fun _ _ => True) :
    KOfN ctx g.admin (gate.threshold g.admin) signers := by
  have hunrevoked : s.store.admin.Unrevoked :=
    ((hr.admin_iff (I := fun _ => True) (fun _ => trivial) (fun d _ _ => rfl) (fun _ _ hu => hu.congr rfl rfl)
      fun _ hu he => he.unrevoked_iff hu).2 hok).last
  obtain ⟨henough, hregistered, -⟩ := ApprovalGate.passed hgate
  have hall : signers.length ≤ (active g.admin.revokedAdmin signers).length := by
    refine length_le_active.2 fun x hx => ?_
    have hmem := hregistered x hx
    rw [hg] at hmem ⊢
    exact hunrevoked x hmem
  exact (hr.passed_iff hg hgate).2 (henough.trans hall)

end

/-! ## A revoked key comes back -/

/-- The third admin is revoked. -/
def revokedThird : List (List Address × ProtocolOp) := [([1, 2], .admin (.revokeAdmin [1, 2] 3))]

theorem admin_approval_k_of_n_revoked :
    KOfN { sampleAdminWorld with signers := [1, 2] } (protocol.play adminStart revokedThird).store.admin
      ((ApprovalGate.operation .critical).threshold (protocol.play adminStart revokedThird).store.admin) [1, 2] :=
  admin_approval_k_of_n (h := protocol.trace adminStart [] revokedThird)
    (g := { (protocol.play adminStart revokedThird).store.governed with authorised := [] })
    (adminStart_history revokedThird) (by decide +kernel) rfl
    (goes_of_toBool (by decide +kernel))

/-- Added again, the revoked key approves an operation as one of two. -/
theorem revoked_admin_approves :
    ¬ ∀ h s, ProtocolHistory h s → ∀ ctx (gate : ApprovalGate) signers (g : Governed), g.admin = s.store.admin →
      Goes (gate.run signers) ctx g (fun _ _ => True) → KOfN ctx g.admin (gate.threshold g.admin) signers := by
  intro hclaim
  let calls := revokedThird ++ [([1, 2], .admin (.direct [1, 2] (.addAdmin 3)))]
  let reached := protocol.play adminStart calls
  have hr : ProtocolHistory (protocol.trace adminStart [] calls) reached :=
    adminStart_history calls
  let called : Governed := { reached.store.governed with authorised := [] }
  have hpassed : Goes ((ApprovalGate.operation .standard).run [1, 3]) { sampleAdminWorld with signers := [1, 3] }
      called fun _ _ => True := goes_of_toBool (by decide +kernel)
  have hactive := (hr.passed_iff (g := called) rfl hpassed).1 (hclaim _ _ hr _ _ _ _ rfl hpassed)
  exact absurd hactive (by decide +kernel)

end QuorumCredit
