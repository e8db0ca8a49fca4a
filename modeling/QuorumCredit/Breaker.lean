import QuorumCredit.PauseGuards
/-!
# The circuit breaker

A firing of the breaker pauses the contract until an admin has acknowledged it.
`unpause` asks for the acknowledgement. The other ways out of the pause do not: an
`Unpause` that was queued, and a thaw whose window runs out. In every run that
takes none of them, nothing is written before the acknowledgement.
-/

open Host Function

namespace QuorumCredit

namespace Access

/-- The rate is reached on these counts, and the cooldown is over. -/
def breakerFires (ctx : Context) (defaultCount totalLoanCount : Nat) (a : Access) : Bool :=
  shouldTriggerCircuitBreaker ctx.config defaultCount totalLoanCount &&
    !decide (ctx.now < min (a.circuitBreakerLastTriggered + ctx.circuitBreakerCooldownSecs) u64Max)

/-- The pause after a firing. -/
def fired (ctx : Context) (defaultCount totalLoanCount : Nat) (a : Access) : Access :=
  { a with
    circuitBreakerLastTriggered := ctx.now
    circuitBreakerHistory :=
      a.circuitBreakerHistory.drop (a.circuitBreakerHistory.length + 1 - circuitBreakerHistoryLimit) ++
        [{ timestamp := ctx.now, defaultCount, totalLoanCount
           rateBps := calculateDefaultRate defaultCount totalLoanCount }]
    circuitBreakerAcknowledged := false
    paused := true
    pauseMode := .paused
    thawState := some ⟨ctx.now, ctx.thawDurationSecs, 0⟩ }

/-- The contract is paused, or it thaws and the window is not over. -/
def Held (now : Nat) (a : Access) : Prop := a.pauseMode ≠ .none ∧ a.thawOver now = false

/-- Held, and the last firing of the breaker is not acknowledged. -/
structure Tripped (now : Nat) (a : Access) : Prop where
  held : a.Held now
  unacknowledged : a.circuitBreakerAcknowledged = false

variable {a b : Access} {now : Nat}

theorem Held.settled (h : a.Held now) : a.settled now = a :=
  settled_of_not_over (by simp [h.2])

@[simp] theorem breakerFires_settled (ctx : Context) (defaultCount totalLoanCount : Nat) :
    (a.settled now).breakerFires ctx defaultCount totalLoanCount = a.breakerFires ctx defaultCount totalLoanCount := by
  unfold Access.settled
  split <;> rfl

theorem held_of_paused (h : a.pauseMode = .paused) : a.Held now := by
  refine ⟨by simp [h], ?_⟩
  cases hover : a.thawOver now with
  | false => rfl
  | true =>
    have hthawing := thawing_of_thawOver hover
    rw [h] at hthawing
    cases hthawing

/-- A thaw that has just begun is on as long as its window is not empty. -/
theorem held_of_thawing {thaw : ThawState} (hmode : a.pauseMode = .thawing) (hthaw : a.thawState = some thaw)
    (hlong : now < thaw.thawStartTimestamp + thaw.thawDuration) : a.Held now := by
  refine ⟨by simp [hmode], ?_⟩
  simp only [thawOver, hmode, hthaw]
  exact decide_eq_false (by omega)

theorem PauseAlike.thawOver (h : a.PauseAlike b) : b.thawOver now = a.thawOver now := by
  simp only [Access.thawOver, h.pauseMode, h.thawState]

theorem PauseAlike.tripped (h : a.PauseAlike b) (ht : a.Tripped now) : b.Tripped now where
  held := ⟨by rw [h.pauseMode]; exact ht.held.1, by rw [h.thawOver]; exact ht.held.2⟩
  unacknowledged := by rw [h.acknowledged]; exact ht.unacknowledged

/-- Elsewhere, the pause is as it was until a thaw's window is over. -/
theorem Drift.tripped (h : a.Drift now b) (ht : a.Tripped now) : b.Tripped now := by
  rcases h with halike | halike
  · exact halike.tripped ht
  · rw [ht.held.settled] at halike
    exact halike.tripped ht

end Access

/-! ## Firing -/

section

variable {ctx : Context} {a : Access} {s : Store}

/-- The pause after `try_trigger_circuit_breaker`. -/
def Access.afterCheck (ctx : Context) (defaultCount totalLoanCount : Nat) (a : Access) : Access :=
  if a.breakerFires ctx defaultCount totalLoanCount = true then a.fired ctx defaultCount totalLoanCount else a

/-- It returns whether the breaker fires. -/
theorem tryTriggerCircuitBreaker_run (defaultCount totalLoanCount : Nat) :
    tryTriggerCircuitBreaker defaultCount totalLoanCount ctx a =
      .ok (a.breakerFires ctx defaultCount totalLoanCount, a.afterCheck ctx defaultCount totalLoanCount) := by
  unfold tryTriggerCircuitBreaker Access.afterCheck Access.breakerFires
  cases htrigger : shouldTriggerCircuitBreaker ctx.config defaultCount totalLoanCount with
  | false =>
    simp only [run_bind, run_ask, htrigger, if_true]
    rfl
  | true =>
    simp only [run_bind, run_ask, htrigger, Bool.true_eq_false, if_false, run_look]
    by_cases hcooldown : ctx.now < min (a.circuitBreakerLastTriggered + ctx.circuitBreakerCooldownSecs) u64Max
    · rw [if_pos hcooldown, decide_eq_true hcooldown]
      rfl
    · rw [if_neg hcooldown, decide_eq_false hcooldown]
      rfl

/-- Its caller takes no notice of what it returns. -/
theorem checkCircuitBreaker_run (defaultCount totalLoanCount : Nat) :
    checkCircuitBreaker defaultCount totalLoanCount ctx a = .ok ((), a.afterCheck ctx defaultCount totalLoanCount) := by
  unfold checkCircuitBreaker
  rw [run_bind, attempt_ok (tryTriggerCircuitBreaker_run defaultCount totalLoanCount)]
  rfl

theorem requireNotPaused_held (h : a.Held ctx.now) (Q : Unit → Access → Prop) : Yields requireNotPaused ctx a Q := by
  refine (yields_of_goes (fun R => goes_requireNotPaused R) Q).2 ?_
  rintro ⟨-, -, hmode⟩
  rw [h.settled] at hmode
  exact absurd hmode h.1

/-- The breaker looks at the counts that `slash` has left, and a firing trips it. -/
theorem slash_trips (signers : List Address) (borrower : Address) :
    Yields (slash signers borrower) ctx s fun _ t =>
      s.access.breakerFires ctx t.book.totalDefaultCount t.book.totalLoanCount = true → t.access.Tripped ctx.now := by
  simp only [slash, requireUnsettled, yields_parts, yields_steps]
  refine (yields_requireAdminApproval signers).mono ?_
  rintro _ s rfl
  rw [yields_of_goes (fun R => goes_requireNotPaused R)]
  -- whatever happens to the stakes and to the book, the pause is as the guard left it
  intro _ loan _ _ total vault _ _ slashing _ _ book _ _
  refine (Yields.of_run' (checkCircuitBreaker_run _ _)).mono ?_
  rintro _ _ ⟨-, rfl⟩ hfires
  have hfired : (s.access.settled ctx.now).breakerFires ctx book.totalDefaultCount book.totalLoanCount = true := by
    rw [Access.breakerFires_settled]
    exact hfires
  change ((s.access.settled ctx.now).afterCheck ctx book.totalDefaultCount book.totalLoanCount).Tripped ctx.now
  rw [Access.afterCheck, if_pos hfired]
  exact ⟨Access.held_of_paused rfl, rfl⟩

/-! ## Calls -/

section

set_option synthInstance.maxSize 200000

/-- While the breaker is tripped, no call of the core changes the pause. -/
theorem dispatch_held (h : s.access.Held ctx.now) (op : Op) :
    Yields (dispatch op) ctx s fun _ t => t.access = s.access := by
  cases hchecks : op.checksPause with
  | false => exact (dispatch_keeps_access hchecks).out ctx s
  | true =>
    cases op with
    | withdrawVouch voucher borrower =>
      unfold dispatch withdrawVouch
      rw [yields_bind, yields_requireAuth]
      intro _
      rw [yields_bind]
      refine (yields_zoom ..).2 ((yields_of_goes (fun R => goes_requireReadsAllowed R) _).2 fun _ => ?_)
      have hsame : Host.Part.set (Access.settled ctx.now (Host.Part.get s)) s = s := by
        rw [Access.Held.settled (a := Host.Part.get s) h, Host.Part.set_get]
      rw [hsame]
      exact Keeps.out ctx s
    | _ =>
      refine (dispatch_blocked hchecks ?_ fun locked => ?_).mono fun _ _ hfalse => hfalse.elim
      · rintro voucher borrower ⟨⟩
      · exact requireNotPaused_held h

end

end

/-- The action that ends a pause. -/
def GovernanceAction.isUnpause : GovernanceAction → Bool
  | .unpause => true
  | _ => false

/-- The call takes no way out of the pause around the acknowledgement. -/
def AdminOp.StaysHeld (a : AdminStore) (access : Access) : AdminOp → Prop
  -- a breaker that fired at time 0 counts as one that never did
  | .direct _ action => action.isUnpause = true → access.circuitBreakerLastTriggered ≠ 0
  | .beginThaw _ => ∀ thaw ∈ access.thawState, thaw.thawDuration ≠ 0
  | .pauseWithThaw _ thawDuration => thawDuration ≠ 0
  | .executeAdminAction actionId => ∀ p ∈ a.adminActions.entry actionId, p.actionType.isUnpause = false
  | .executeGovernanceAction proposalId => ∀ p ∈ a.governanceProposals.entry proposalId, p.action.isUnpause = false
  | _ => True

instance (a : AdminStore) (access : Access) (op : AdminOp) : Decidable (op.StaysHeld a access) := by
  apply op.casesOn (motive := fun op => Decidable (op.StaysHeld a access)) <;> intros <;>
    (unfold AdminOp.StaysHeld; infer_instance)

def AdminOp.isAcknowledgement : AdminOp → Bool
  | .acknowledgeCircuitBreaker _ => true
  | _ => false

namespace Admin

section

variable {ctx : AdminContext} {g : Governed}

theorem internal_tripped (h : g.access.Tripped ctx.now) {action : GovernanceAction} (hnot : action.isUnpause = false) :
    Yields (executeGovernanceActionInternal action) ctx g fun _ t => t.access.Tripped ctx.now := by
  cases hpause : action.onPause with
  | false =>
    have hkeeps := internal_keeps_access hpause
    refine (hkeeps.out ctx g).mono fun _ t ht => ?_
    rw [ht]
    exact h
  | true =>
    cases action with
    | unpause => cases hnot
    | pause =>
      simp only [executeGovernanceActionInternal, yields_onAccess]
      exact ⟨Access.held_of_paused rfl, h.unacknowledged⟩
    | _ => cases hpause

/-- Until it is acknowledged, a firing of the breaker is outlived by every call that takes no way around that. -/
theorem dispatch_tripped (h : g.access.Tripped ctx.now) {op : AdminOp} (hok : op.StaysHeld g.admin g.access)
    (hack : op.isAcknowledgement = false) :
    Yields (Admin.dispatch op) ctx g fun _ t => t.access.Tripped ctx.now := by
  cases hchecks : op.checksPause with
  | true =>
    refine (dispatch_blocked hchecks fun authorised Q => ?_).mono fun _ _ hfalse => hfalse.elim
    rw [yields_guard_requireNotPaused]
    rintro ⟨-, -, hmode⟩
    rw [h.held.settled] at hmode
    exact absurd hmode h.held.1
  | false =>
    cases hleaves : leavesPause op with
    | true =>
      have hkeeps := dispatch_keeps_access hchecks hleaves
      refine (hkeeps.out ctx g).mono fun _ t ht => ?_
      rw [ht]
      exact h
    | false =>
      cases op with
      | direct signers action =>
        cases action with
        | pause =>
          simp only [Admin.dispatch, directCall, pause, yields_steps, yields_onAccess,
            yields_requireAdminApprovalForAction, yields_firstAdminSigner]
          exact fun _ _ _ => ⟨Access.held_of_paused rfl, h.unacknowledged⟩
        | unpause =>
          -- the breaker has fired, and nobody has acknowledged it
          have hunacknowledged : g.access.isCircuitBreakerAcknowledged = false := by
            simp [Access.isCircuitBreakerAcknowledged, h.unacknowledged, hok rfl]
          simp only [Admin.dispatch, directCall, unpause, yields_steps, yields_onAccess,
            yields_requireAdminApprovalForAction, yields_firstAdminSigner]
          intro _ hacknowledged
          rw [Governed.authorise_access, hunacknowledged] at hacknowledged
          cases hacknowledged
        | _ => cases hleaves
      | beginThaw signers =>
        simp only [Admin.dispatch, beginThaw, yields_steps, yields_onAccess, yields_requireAdminApprovalForAction,
          yields_firstAdminSigner]
        intro _ _ thaw hthaw _ _
        have hlong := hok thaw hthaw
        refine ⟨Access.held_of_thawing rfl rfl ?_, h.unacknowledged⟩
        exact Nat.lt_add_of_pos_right (Nat.pos_of_ne_zero hlong)
      | pauseWithThaw signers thawDuration =>
        simp only [Admin.dispatch, pauseWithThaw, yields_steps, yields_onAccess, yields_requireAdminApprovalForAction,
          yields_firstAdminSigner]
        intro _ _ _
        refine ⟨Access.held_of_thawing rfl rfl ?_, h.unacknowledged⟩
        exact Nat.lt_add_of_pos_right (Nat.pos_of_ne_zero hok)
      | acknowledgeCircuitBreaker => cases hack
      | executeAdminAction id =>
        simp only [Admin.dispatch, executeAdminAction, storeAdminAction, yields_steps, yields_config, yields_load,
          yields_onAdmin]
        intro p hp _ _
        exact internal_tripped h (hok p hp)
      | executeGovernanceAction id =>
        simp only [Admin.dispatch, executeGovernanceAction, storeGovernanceProposal, requireOpen, yields_steps,
          yields_load, yields_onAdmin]
        intro p hp _ _ _ _ _
        exact internal_tripped h (hok p hp)
      | _ => cases hleaves

end

end Admin

/-! ## Runs -/

/-- The call was a slash, and `try_trigger_circuit_breaker` fired in it. -/
def breakerFired (s : ProtocolState) (e : ProtocolEvent) : Bool :=
  match protocol.done s e with
  | some (.core (.slash ..), t) =>
    s.store.core.access.breakerFires (s.store.governed.context (protocol.context s.world []))
      t.core.book.totalDefaultCount t.core.book.totalLoanCount
  | _ => false

/-- `acknowledge_circuit_breaker` went through. -/
def acknowledges (s : ProtocolState) (e : ProtocolEvent) : Bool :=
  match protocol.done s e with
  | some (.admin op, _) => op.isAcknowledgement
  | _ => false

/-- A call that goes through takes no way around the acknowledgement, and the
time that passes runs out no thaw. -/
def StaysHeld (s : ProtocolState) : ProtocolEvent → Prop
  | .call signers (.admin op) =>
    (protocol.exec s signers (.admin op)).isSome = true → op.StaysHeld s.store.admin s.store.core.access
  | .call _ (.core _) => True
  | .elsewhere w _ => s.store.core.access.thawOver w.now = false

instance (s : ProtocolState) : ∀ e : ProtocolEvent, Decidable (StaysHeld s e)
  | .call signers (.admin op) =>
    inferInstanceAs (Decidable ((protocol.exec s signers (.admin op)).isSome = true → op.StaysHeld _ _))
  | .call _ (.core _) => inferInstanceAs (Decidable True)
  | .elsewhere w _ => inferInstanceAs (Decidable (s.store.core.access.thawOver w.now = false))

/-- Held by a firing nobody has acknowledged, at the time of the state. -/
def ProtocolState.Tripped (s : ProtocolState) : Prop := s.store.core.access.Tripped s.world.now

section

variable {s s' : ProtocolState} {e : ProtocolEvent}

theorem tripped_of_fired (hst : protocol.Step s e s') (hfired : breakerFired s e = true) : s'.Tripped := by
  unfold breakerFired at hfired
  split at hfired
  case h_1 signers borrower t hdone =>
    obtain ⟨callers, rfl, he⟩ := Component.of_done hdone
    have hyields : Yields (ProtocolOp.invoke (.core (.slash signers borrower)))
        (protocol.context s.world callers) s.store
        fun _ t => s.store.core.access.breakerFires (s.store.governed.context (protocol.context s.world []))
          t.core.book.totalDefaultCount t.core.book.totalLoanCount = true → t.core.access.Tripped s.world.now := by
      rw [yields_invoke_core]
      exact slash_trips signers borrower
    have htripped := Component.exec_yields (Q := fun t => s.store.core.access.breakerFires _
      t.core.book.totalDefaultCount t.core.book.totalLoanCount = true → t.core.access.Tripped s.world.now)
        hyields he hfired
    cases hst with
    | call =>
      unfold ProtocolState.Tripped Component.after
      rw [he]
      exact htripped
  case h_2 => cases hfired

/-- The firing outlives a call that does not acknowledge it. -/
theorem tripped_call {signers : List Address} {op : ProtocolOp} {t : ProtocolStore}
    (he : protocol.exec s signers op = some t) (hack : acknowledges s (.call signers op) = false)
    (hok : StaysHeld s (.call signers op)) (h : s.Tripped) : t.core.access.Tripped s.world.now := by
  cases op with
  | core op =>
    have hyields : Yields (ProtocolOp.invoke (.core op)) (protocol.context s.world signers) s.store fun _ t =>
        t.core.access = s.store.core.access := by
      rw [yields_invoke_core]
      exact dispatch_held h.held op
    have hsame := Component.exec_yields (Q := fun t => t.core.access = s.store.core.access) hyields he
    rw [hsame]
    exact h
  | admin op =>
    have hkind : op.isAcknowledgement = false := by
      simpa [acknowledges, Component.done_call he] using hack
    have hstays := hok (by rw [he]; rfl)
    have hyields : Yields (ProtocolOp.invoke (.admin op)) (protocol.context s.world signers) s.store fun _ t =>
        t.core.access.Tripped s.world.now := by
      rw [yields_invoke_admin]
      refine Admin.dispatch_tripped ?_ ?_ hkind
      · exact h
      · exact hstays
    exact Component.exec_yields (Q := fun t => t.core.access.Tripped s.world.now) hyields he

theorem tripped_step (hst : protocol.Step s e s') (hack : acknowledges s e = false) (hok : StaysHeld s e)
    (h : s.Tripped) : s'.Tripped := by
  cases hst with
  | call signers op =>
    unfold ProtocolState.Tripped Component.after
    cases he : protocol.exec s signers op with
    | none => exact h
    | some t =>
      have hafter := tripped_call he hack hok h
      exact hafter
  | elsewhere hdrift =>
    cases hdrift with
    | elsewhere _ _ haccess => exact haccess.tripped ⟨⟨h.held.1, hok⟩, h.unacknowledged⟩

/-- After a firing of the breaker, and until it is acknowledged, no write passes
the check of the pause, in every run that takes no way around the acknowledgement. -/
theorem breaker_holds {post pre : List (ProtocolState × ProtocolEvent)}
    (hr : ProtocolHistory (post ++ (s, e) :: pre) s')
    (hfired : breakerFired s e = true) (hack : Along (fun s e => acknowledges s e = false) post)
    (hok : Along StaysHeld post) (signers : List Address) :
    ¬ Goes requireNotPaused (s'.store.governed.context (protocol.context s'.world signers)) s'.store.core.access
      fun _ _ => True := by
  obtain ⟨d, w, bank, hr⟩ := hr
  obtain ⟨-, t, hst, hpost⟩ := hr.split
  have htripped : s'.Tripped := by
    refine hpost.inv (fun s e => acknowledges s e = false ∧ StaysHeld s e) (fun _ s => s.Tripped)
      (tripped_of_fired hst hfired) ?_ fun x hx => ⟨hack x hx, hok x hx⟩
    rintro h s e s' - hi ⟨hack, hok⟩ hst
    exact tripped_step hst hack hok hi
  rw [goes_requireNotPaused]
  rintro ⟨⟨-, -, hmode⟩, -⟩
  have hsettled := congrArg Access.pauseMode htripped.held.settled
  exact htripped.held.1 (hsettled.symm.trans hmode)

end

/-! ## A queued unpause -/

/-- The only loan of the contract is to be slashed, and any rate of defaults is too high. -/
def beforeFiring : List (List Address × ProtocolOp) :=
  [([2], .core (.vouch 2 10 1000000 100 0)), ([1, 2], .core (.createLoanPool [1, 2] [10] [500000])),
    ([], .admin (.setDefaultRateThreshold [] 1))]

/-- The slash that fires the breaker. -/
def firing : ProtocolState × ProtocolEvent :=
  (protocol.play adminStart beforeFiring, .call [1, 2] (.core (.slash [1, 2] 10)))

def afterFiring : ProtocolState := protocol.after firing.1 [1, 2] (.core (.slash [1, 2] 10))

theorem firing_history (calls : List (List Address × ProtocolOp)) :
    ProtocolHistory (protocol.trace afterFiring [] calls ++ firing :: protocol.trace adminStart [] beforeFiring)
      (protocol.play afterFiring calls) := by
  have hbefore : Run protocol.Step adminStart (protocol.trace adminStart [] beforeFiring) firing.1 :=
    protocol.run_play .nil beforeFiring
  have hfiring : Run protocol.Step adminStart (firing :: protocol.trace adminStart [] beforeFiring) afterFiring :=
    hbefore.snoc (.call firing.1 [1, 2] (ProtocolOp.core (.slash [1, 2] 10)))
  exact ⟨sampleDeployment, sampleAdminWorld, sampleBank, hfiring.trans (protocol.run_play .nil calls)⟩

/-- A thaw is begun, and its window is not over. -/
theorem breaker_holds_thawing :
    ¬ Goes requireNotPaused
      ((protocol.play afterFiring [([1, 2], .admin (.pauseWithThaw [1, 2] 86400))]).store.governed.context
        (protocol.context (protocol.play afterFiring [([1, 2], .admin (.pauseWithThaw [1, 2] 86400))]).world []))
      (protocol.play afterFiring [([1, 2], .admin (.pauseWithThaw [1, 2] 86400))]).store.core.access fun _ _ => True :=
  breaker_holds (firing_history [([1, 2], .admin (.pauseWithThaw [1, 2] 86400))]) (by decide +kernel)
    (by decide +kernel)
    (by decide +kernel) []

/-- An admin action ends the pause of a breaker nobody has acknowledged. -/
theorem queued_unpause_clears :
    ¬ ∀ post pre s e s', ProtocolHistory (post ++ (s, e) :: pre) s' → breakerFired s e = true →
      Along (fun s e => acknowledges s e = false) post → ∀ signers,
        ¬ Goes requireNotPaused (s'.store.governed.context (protocol.context s'.world signers)) s'.store.core.access
          fun _ _ => True := by
  intro hclaim
  let calls : List (List Address × ProtocolOp) :=
    [([1], .admin (.proposeAdminAction 1 .unpause)), ([1], .admin (.approveAdminAction 1 1)),
      ([2], .admin (.approveAdminAction 2 1)), ([], .admin (.executeAdminAction 1))]
  refine hclaim _ _ _ _ _ (firing_history calls) ?_ ?_ [] (goes_of_toBool ?_)
  · decide +kernel
  · decide +kernel
  · decide +kernel

end QuorumCredit
