import QuorumCredit.AdminEffects
import QuorumCredit.Frames
/-!
# What the pause stops

While writes are paused, a call that makes the check is refused before it has
written anything. The others of the lending core make no check, and leave the
pause as it is.
-/

open Host Function

namespace QuorumCredit

/-- The contract is paused, by its mode or by the emergency switch. -/
def Access.Shut (cfg : Config) (a : Access) : Prop := cfg.emergencyPauseEnabled = true ∨ a.pauseMode = .paused

instance (cfg : Config) (a : Access) : Decidable (a.Shut cfg) := inferInstanceAs (Decidable (_ ∨ _))

section

variable {ctx : Context} {a : Access} {s : Store}

/-- What is paused stays so when a thaw that is over is ended. -/
theorem Access.Shut.settled (h : a.Shut ctx.config) (now : Nat) : (a.settled now).Shut ctx.config := by
  rcases h with hemergency | hpaused
  · exact .inl hemergency
  · have hnot : a.pauseMode ≠ .thawing := by
      rw [hpaused]
      decide
    rw [Access.settled_of_not_thawing hnot]
    exact .inr hpaused

theorem requireNotPaused_shut (h : a.Shut ctx.config) (Q : Unit → Access → Prop) : Yields requireNotPaused ctx a Q := by
  refine (yields_of_goes (fun R => goes_requireNotPaused R) Q).2 ?_
  rintro ⟨hemergency, -, hmode⟩
  rcases h.settled ctx.now with hshut | hshut
  · rw [hshut] at hemergency
    cases hemergency
  · rw [hshut] at hmode
    cases hmode

theorem requireReadsAllowed_shut (h : a.Shut ctx.config) (Q : Unit → Access → Prop) :
    Yields requireReadsAllowed ctx a Q := by
  refine (yields_of_goes (fun R => goes_requireReadsAllowed R) Q).2 ?_
  rintro ⟨hemergency, -, hmode⟩
  rcases h.settled ctx.now with hshut | hshut
  · rw [hshut] at hemergency
    cases hemergency
  · exact absurd hshut hmode

/-- The calls of the lending core that check the pause before they write. -/
def Op.checksPause : Op → Bool
  | .autoSlash _ | .claimExpiredLoan _ | .createLoanPool .. | .getLoan _ | .getLoanById _ | .checkAllDefaults _
  | .initializeLoanCovenants .. | .releaseSlashEscrow .. | .slashTreasury .. | .withdrawSlashTreasury .. => false
  | _ => true

/-- A call that checks the pause does not go through while the check fails. A
vouch is withdrawn under the check of the reads. -/
theorem dispatch_blocked {op : Op} (hchecks : op.checksPause = true)
    (hread : ∀ voucher borrower, op ≠ .withdrawVouch voucher borrower)
    (hnot : ∀ locked Q, Yields requireNotPaused ctx { s.access with locked } Q) :
    Yields (dispatch op) ctx s fun _ _ => False := by
  have hfirst : ∀ Q, Yields requireNotPaused ctx s.access Q := hnot s.access.locked
  cases op with
  | autoSlash | claimExpiredLoan | createLoanPool | getLoan | getLoanById | checkAllDefaults | initializeLoanCovenants
  | releaseSlashEscrow | slashTreasury | withdrawSlashTreasury => cases hchecks
  | withdrawVouch voucher borrower => exact absurd rfl (hread voucher borrower)
  | repay borrower payment =>
    -- taking the lock leaves the pause as it is
    simp only [dispatch, repay, repayLoan, acquireLock, yields_parts, yields_steps, yields_requireAuth]
    exact fun _ _ => hnot true _
  | slash signers borrower =>
    simp only [dispatch, slash, yields_parts, yields_bind]
    refine (yields_requireAdminApproval signers).mono ?_
    rintro _ _ rfl
    exact hfirst _
  | _ =>
    simp only [dispatch, vouch, increaseStake, decreaseStake, requestWithdrawal, requestLoan, admitLoan, admitBorrower,
      repayPartial, refinanceLoan, delegateVote, revokeVoteDelegation, voteSlash, executeSlashVote, executePendingSlash,
      batchVouch, partialWithdraw, transferVouch, splitVouch, rotateToNewBorrower, reverseSlash, appealSlash,
      voteAppeal, finalizeAppeal, discard, requireNotThawing, yields_parts, yields_steps, yields_requireAuth]
    intros
    exact hfirst _

/-- A call that checks the pause does not go through while the contract is paused. -/
theorem dispatch_shut {op : Op} (hchecks : op.checksPause = true) (h : s.access.Shut ctx.config) :
    Yields (dispatch op) ctx s fun _ _ => False := by
  cases op with
  | withdrawVouch voucher borrower =>
    simp only [dispatch, withdrawVouch, yields_parts, yields_bind, yields_requireAuth]
    exact fun _ => requireReadsAllowed_shut h _
  | _ =>
    refine dispatch_blocked hchecks ?_ fun locked => requireNotPaused_shut (a := { s.access with locked }) h
    rintro voucher borrower ⟨⟩

end

/-! ## The calls without the check -/

instance : Apart Store.access LoanBook where
instance : Apart Store.access Vault where
instance : Apart Store.access Terms where
instance : Apart Store.access Slashing where

section

set_option synthInstance.maxSize 200000

instance (total : Int) (pool : List (Address × Int)) : Keeps Store.access (checkPool total pool) := by
  induction pool generalizing total with
  | nil => unfold checkPool; infer_instance
  | cons entry rest ih => unfold checkPool checkPoolEntry; infer_instance

instance (deadline : Nat) (pool : List (Address × Int)) : Keeps Store.access (issuePool deadline pool) := by
  induction pool with
  | nil => unfold issuePool; infer_instance
  | cons entry rest ih => unfold issuePool issuePoolLoan; infer_instance

/-- They leave the pause alone. -/
theorem dispatch_keeps_access {op : Op} (h : op.checksPause = false) : Keeps Store.access (dispatch op) := by
  cases op with
  | autoSlash borrower =>
    unfold dispatch autoSlash
    infer_instance
  | claimExpiredLoan borrower =>
    unfold dispatch claimExpiredLoan
    infer_instance
  | createLoanPool signers borrowers amounts =>
    unfold dispatch createLoanPool
    infer_instance
  | releaseSlashEscrow signers borrower =>
    unfold dispatch releaseSlashEscrow
    infer_instance
  | slashTreasury signers recipient =>
    unfold dispatch slashTreasury
    infer_instance
  | withdrawSlashTreasury signers recipient amount =>
    unfold dispatch withdrawSlashTreasury
    infer_instance
  | getLoan | getLoanById | checkAllDefaults | initializeLoanCovenants =>
    unfold dispatch
    infer_instance
  | _ => cases h

end

/-! ## The administration -/

/-- The calls of the administration that check the pause before they write. -/
def AdminOp.checksPause : AdminOp → Bool
  | .direct _ (.setYieldBps _) | .direct _ (.setSlashBps _) | .setConfig .. | .updateConfig .. | .batchUpdateConfig ..
  | .proposeConfigUpdate .. | .approveConfigUpdate .. | .finalizeConfigUpdate _ | .proposeConfigChange ..
  | .executeConfigChange _ | .cancelConfigChange .. | .proposeSlashThreshold .. | .voteSlashThreshold ..
  | .finalizeSlashThreshold _ | .proposeAdminRemoval .. | .voteAdminRemoval .. | .finalizeAdminRemoval _
  | .queueWithdrawal .. => true
  | _ => false

/-- The actions that are about the pause. -/
def GovernanceAction.onPause : GovernanceAction → Bool
  | .pause | .unpause => true
  | _ => false

namespace Admin

/-- A call of the administration that checks the pause does not go through while the check fails. -/
theorem dispatch_blocked {ctx : AdminContext} {g : Governed} {op : AdminOp} (hchecks : op.checksPause = true)
    (hnot : ∀ authorised Q, Yields (guard requireNotPaused) ctx { g with authorised } Q) :
    Yields (Admin.dispatch op) ctx g fun _ _ => False := by
  have hfirst : ∀ Q, Yields (guard requireNotPaused) ctx g Q := hnot g.authorised
  have hthen : ∀ who Q, Yields (guard requireNotPaused) ctx (g.authorise [who]) Q := fun _ => hnot _
  cases op with
  | direct signers action =>
    cases action with
    | setYieldBps | setSlashBps =>
      simp only [Admin.dispatch, directCall, updateConfig, yields_bind, yields_orPanic]
      exact hfirst _
    | _ => cases hchecks
  | setConfig | updateConfig | batchUpdateConfig =>
    simp only [Admin.dispatch, setConfig, updateConfig, batchUpdateConfig, yields_bind, yields_orPanic]
    exact hfirst _
  | finalizeConfigUpdate | executeConfigChange | cancelConfigChange | finalizeSlashThreshold | finalizeAdminRemoval =>
    simp only [Admin.dispatch, finalizeConfigUpdate, executeConfigChange, cancelConfigChange, finalizeSlashThreshold,
      finalizeAdminRemoval, yields_steps]
    exact hfirst _
  | proposeConfigUpdate | approveConfigUpdate | proposeConfigChange | proposeSlashThreshold | voteSlashThreshold
  | proposeAdminRemoval | voteAdminRemoval | queueWithdrawal =>
    -- the caller is asked to sign first
    simp only [Admin.dispatch, proposeConfigUpdate, approveConfigUpdate, proposeConfigChange, proposeSlashThreshold,
      voteSlashThreshold, proposeAdminRemoval, voteAdminRemoval, queueWithdrawal, requireParticipant, yields_steps,
      yields_requireAuth]
    intro _
    exact hthen _ _
  | _ => cases hchecks

end Admin

/-! ## The administration without the check

The pause is not among the records that the administration writes.
-/

namespace Admin

section

set_option synthInstance.maxSize 200000

instance (f : AdminStore → AdminStore) : Keeps Governed.access (onAdmin f) := ⟨fun _ _ => (yields_onAdmin f _).2 rfl⟩

instance (cfg : AdminConfig) : Keeps Governed.access (setConfigEntry cfg) := inferInstanceAs (Keeps _ (onAdmin _))

instance (f : AdminSettings → AdminSettings) : Keeps Governed.access (onSettings f) :=
  inferInstanceAs (Keeps _ (onAdmin _))

instance (who : Address) : Keeps Governed.access (Admin.requireAuth who) :=
  ⟨fun _ _ => (yields_requireAuth who _).2 fun _ => rfl⟩

instance (signers : List Address) : Keeps Governed.access (Admin.requireAdminApproval signers) :=
  ⟨fun _ _ => (Admin.yields_requireAdminApproval signers _).2 fun _ => rfl⟩

instance (raise : ContractError → Failure) (signers : List Address) (action : AdminAction) :
    Keeps Governed.access (requireAdminApprovalForAction raise signers action) :=
  ⟨fun _ _ => (yields_requireAdminApprovalForAction raise signers action _).2 fun _ => rfl⟩

instance (cfg : AdminConfig) (target : Address) (signers : List Address) :
    Keeps Governed.access (authorizeEach (checkRevoker cfg target) signers) :=
  ⟨fun _ _ => (authorizeEach_keeps (checkRevoker_keeps cfg target) signers).mono fun _ _ h => congrArg Stored.access h⟩

instance (successor : Option Address) : Keeps Governed.access (writeSuccessor successor) := by
  cases successor <;> (unfold writeSuccessor config u64; dsimp only; infer_instance)

/-- The queue writes the pause in two of its actions. -/
theorem internal_keeps_access {action : GovernanceAction} (h : action.onPause = false) :
    Keeps Governed.access (executeGovernanceActionInternal action) := by
  cases action with
  | pause | unpause => cases h
  | _ =>
    unfold executeGovernanceActionInternal
    unfold updateCurrentContractWasm writeLoanSizeSlashMaxBps validateAdminMember config
    infer_instance

instance (signers : List Address) (bps : Nat) (write : AdminConfig → AdminConfig) :
    Keeps Governed.access (setInsurance signers bps write) := by
  unfold setInsurance config firstAdminSigner
  infer_instance

/-- And so it does in the direct calls. -/
theorem directCall_keeps_access (signers : List Address) {action : GovernanceAction}
    (hchecks : (AdminOp.direct signers action).checksPause = false)
    (h : action.onPause = false) : Keeps Governed.access (directCall signers action) := by
  cases action with
  | pause | unpause => cases h
  | setYieldBps | setSlashBps => cases hchecks
  | _ =>
    unfold directCall
    simp only [setAdminThreshold, upgrade, setProtocolFee, setFeeTreasury, setMinStake, setMaxLoanAmount,
      setMinVouchers, setMaxVouchersPerBorrower, setReputationNft, setWhitelistEnabled, blacklist,
      setPrepaymentPenaltyBps, setDynamicSlashThreshold, setLoanSizeSlashEnabled, setLoanSizeSlashMaxBps,
      setConfirmationRequired, setAdminCompensationBps, setRemovalVoteThreshold, setRateLimitConfig, addAllowedToken,
      removeAllowedToken, setMaxLoanToStakeRatio, setGracePeriod, addAdmin, removeAdmin, rotateAdmin,
      setSuccessorAdmin, requireValidToken, requireValidAddress, updateCurrentContractWasm, writeLoanSizeSlashMaxBps,
      validateAdminMember, config, firstAdminSigner]
    infer_instance

/-- The calls that leave the pause as it is: all but those that are about it,
and those that execute an action that may be. -/
def leavesPause : AdminOp → Bool
  | .direct _ action => !action.onPause
  | .beginThaw _ | .pauseWithThaw .. | .acknowledgeCircuitBreaker _ | .executeAdminAction _
  | .executeGovernanceAction _ => false
  | _ => true

theorem dispatch_keeps_access {op : AdminOp} (hchecks : op.checksPause = false) (h : leavesPause op = true) :
    Keeps Governed.access (Admin.dispatch op) := by
  cases op with
  | direct signers action => exact directCall_keeps_access signers hchecks (by simpa [leavesPause] using h)
  | beginThaw | pauseWithThaw | acknowledgeCircuitBreaker | executeAdminAction | executeGovernanceAction => cases h
  | setConfig | updateConfig | batchUpdateConfig | proposeConfigUpdate | approveConfigUpdate | finalizeConfigUpdate
  | proposeConfigChange | executeConfigChange | cancelConfigChange | proposeSlashThreshold | voteSlashThreshold
  | finalizeSlashThreshold | proposeAdminRemoval | voteAdminRemoval | finalizeAdminRemoval | queueWithdrawal =>
    cases hchecks
  | _ =>
    unfold Admin.dispatch
    simp only [emergencyPause, emergencyUnpause, setDefaultRateThreshold, setInsuranceFundPremiumBps,
      setInsuranceMaxPayoutBps, setInsurancePremiumBps, setMaxVouchersPerLoan, setupRoleBasedRateLimits,
      addToAdminWhitelist, removeFromAdminWhitelist, addToAdminBlacklist, removeFromAdminBlacklist, proposeAdmin,
      acceptAdmin, claimSuccessorAdmin, cancelSuccessorAdmin, revokeAdmin, setMultiTierThresholds, assignAdminRole,
      migrateLegacyAdminsToSuperadmin, setGovernanceQueueConfig, proposeAdminAction, approveAdminAction,
      storeAdminAction, proposeGovernanceAction, approveGovernanceAction, rejectGovernanceAction,
      cancelGovernanceAction, storeGovernanceProposal, requireOpen, requireUndecided, cancelSlashProposal,
      storeTimelock, executeWithdrawal, requireNextId, load, isAdmin, isRevoked, config, firstAdminSigner, u64]
    infer_instance

end

end Admin

end QuorumCredit
