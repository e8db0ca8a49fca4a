import QuorumCredit.AdminEffects
import Mathlib.Data.List.Basic
/-!
# The configuration stays within its bounds

Each call that writes the configuration checks what it is given, and some check
only that: not the fields it is bounded by, nor the other way round. Here is what
each call needs for all the bounds to hold after it, and it is enough for every run.
-/

open Host Function

namespace QuorumCredit

/-! ## The bounds -/

namespace AdminConfig

structure InBounds (cfg : AdminConfig) : Prop where
  yieldBps : 0 ≤ cfg.yieldBps ∧ cfg.yieldBps ≤ 10000
  slashBps : 0 < cfg.slashBps ∧ cfg.slashBps ≤ 10000
  minLoanAmount : 0 < cfg.minLoanAmount
  loanDuration : 0 < cfg.loanDuration
  gracePeriod : cfg.gracePeriod ≤ cfg.loanDuration
  maxLoanToStakeRatio : 0 < cfg.maxLoanToStakeRatio
  distinct : cfg.allowedTokens.Nodup
  notPrimary : cfg.token ∉ cfg.allowedTokens

instance (cfg : AdminConfig) : Decidable cfg.InBounds :=
  decidable_of_iff
    ((0 ≤ cfg.yieldBps ∧ cfg.yieldBps ≤ 10000) ∧ (0 < cfg.slashBps ∧ cfg.slashBps ≤ 10000) ∧ 0 < cfg.minLoanAmount ∧
      0 < cfg.loanDuration ∧ cfg.gracePeriod ≤ cfg.loanDuration ∧ 0 < cfg.maxLoanToStakeRatio ∧
      cfg.allowedTokens.Nodup ∧ cfg.token ∉ cfg.allowedTokens)
    ⟨fun h => ⟨h.1, h.2.1, h.2.2.1, h.2.2.2.1, h.2.2.2.2.1, h.2.2.2.2.2.1, h.2.2.2.2.2.2.1, h.2.2.2.2.2.2.2⟩,
      fun h => ⟨h.yieldBps, h.slashBps, h.minLoanAmount, h.loanDuration, h.gracePeriod, h.maxLoanToStakeRatio,
        h.distinct,
        h.notPrimary⟩⟩

/-- The slash rate is at most the maximum for large loans. -/
def SlashCapped (cfg : AdminConfig) : Prop :=
  cfg.slashBps ≤ cfg.loanSizeSlashMaxBps ∧ cfg.loanSizeSlashMaxBps ≤ 10000

instance (cfg : AdminConfig) : Decidable cfg.SlashCapped := inferInstanceAs (Decidable (_ ∧ _))

/-- All bounds hold, that of the maximum once it has been set. -/
structure Valid (capped : Prop) (cfg : AdminConfig) : Prop where
  inBounds : cfg.InBounds
  slashCapped : capped → cfg.SlashCapped

end AdminConfig

/-- The action a call does. -/
def AdminOp.action (a : AdminStore) : AdminOp → Option GovernanceAction
  | .direct _ action => some action
  | .executeAdminAction id => (a.adminActions.entry id).map (·.actionType)
  | .executeGovernanceAction id => (a.governanceProposals.entry id).map (·.action)
  | _ => none

def GovernanceAction.setsMax : GovernanceAction → Bool
  | .setLoanSizeSlashMaxBps _ => true
  | _ => false

/-- The call is one of `set_loan_size_slash_max_bps`, direct or proposed. -/
def AdminOp.SetsMax (a : AdminStore) (op : AdminOp) : Prop := ∃ action ∈ op.action a, action.setsMax = true

instance (a : AdminStore) (op : AdminOp) : Decidable (op.SetsMax a) :=
  inferInstanceAs (Decidable (∃ x ∈ op.action a, _))

/-- The maximum has been set. -/
def MaxSet (calls : List (AdminStore × AdminOp)) : Prop := ∃ call ∈ calls, call.2.SetsMax call.1

instance (calls : List (AdminStore × AdminOp)) : Decidable (MaxSet calls) :=
  inferInstanceAs (Decidable (∃ x ∈ calls, _))

/-! ## What keeps them -/

/-- An action keeps the bounds: a slash rate is at most the maximum that was set. -/
def GovernanceAction.KeepsConfig (capped : Prop) (cfg : AdminConfig) : GovernanceAction → Prop
  | .setSlashBps slashBps => capped → slashBps ≤ cfg.loanSizeSlashMaxBps
  | _ => True

/-- A call keeps the bounds. -/
def AdminOp.KeepsConfig (capped : Prop) (a : AdminStore) : AdminOp → Prop
  | .setConfig _ cfg => cfg.allowedTokens.Nodup ∧ cfg.token ∉ cfg.allowedTokens ∧ (capped → cfg.SlashCapped)
  | .updateConfig _ _ slashBps => capped → ∀ v ∈ slashBps, v ≤ a.config.loanSizeSlashMaxBps
  | .batchUpdateConfig _ u =>
    (capped → ∀ v ∈ u.slashBps, v ≤ a.config.loanSizeSlashMaxBps) ∧
      (u.gracePeriod = none → ∀ v ∈ u.loanDuration, a.config.gracePeriod ≤ v)
  | .executeConfigChange id =>
    ∀ p ∈ a.timelocks.entry id, ∀ cfg ∈ p.action.newConfig, cfg.InBounds ∧ (capped → cfg.SlashCapped)
  | .finalizeSlashThreshold id =>
    ∀ p ∈ a.slashThresholds.entry id, p.rejectVotes < p.approveVotes → capped →
      p.proposedThreshold ≤ a.config.loanSizeSlashMaxBps
  | op => ∀ action ∈ op.action a, action.KeepsConfig capped a.config

instance {capped : Prop} [Decidable capped] (cfg : AdminConfig) (action : GovernanceAction) :
    Decidable (action.KeepsConfig capped cfg) := by
  apply action.casesOn (motive := fun action => Decidable (action.KeepsConfig capped cfg)) <;> intros <;>
    (unfold GovernanceAction.KeepsConfig; infer_instance)

instance {capped : Prop} [Decidable capped] (a : AdminStore) (op : AdminOp) : Decidable (op.KeepsConfig capped a) := by
  apply op.casesOn (motive := fun op => Decidable (op.KeepsConfig capped a)) <;> intros <;>
    (unfold AdminOp.KeepsConfig; infer_instance)

section

variable {a a' : AdminStore} {op : AdminOp} {action : GovernanceAction} {capped : Prop}

/-! ## Slash rates put to a vote -/

/-- The slash rates put to a vote are rates. -/
def AdminStore.RatesSound (a : AdminStore) : Prop :=
  ∀ id p, a.slashThresholds.entry id = some p → 0 < p.proposedThreshold ∧ p.proposedThreshold ≤ 10000

namespace AdminStore.RatesSound

theorem sameRates (hi : a.RatesSound) (h : SameRates a.slashThresholds a'.slashThresholds) : a'.RatesSound := by
  intro id p' hp'
  obtain ⟨p, hp, hrate⟩ := h id p' hp'
  rw [hrate]
  exact hi id p hp

theorem congr (hi : a.RatesSound) (h : a'.slashThresholds = a.slashThresholds) : a'.RatesSound := by
  unfold AdminStore.RatesSound
  rw [h]
  exact hi

theorem effect (hi : a.RatesSound) (he : AdminEffect a op a') : a'.RatesSound := by
  cases he with
  | other _ _ _ hrates => exact hi.sameRates hrates
  | ran hdone => exact hi.congr hdone.rates
  | executedAction _ _ hdone => exact hi.congr hdone.rates
  | executedQueued _ _ hdone => exact hi.congr hdone.rates
  | proposedRate hbounds hmake =>
    intro i q hq
    rcases Table.entry_of_add hq with ⟨-, rfl⟩ | ⟨-, hq⟩
    · rw [hmake i]
      exact hbounds
    · exact hi i q hq
  | finalizedRate hp _ =>
    intro i q hq
    have hold := hi _ _ hp
    rcases Table.entry_of_store hq with ⟨-, rfl⟩ | ⟨-, hq⟩
    · exact hold
    · exact hi i q hq
  | _ => exact hi.congr rfl

end AdminStore.RatesSound

/-! ## One call -/

/-- A field that is left or written. -/
theorem getD_iff {β : Type} {o : Option β} {d : β} {P : β → Prop} (hd : P d) : P (o.getD d) ↔ ∀ v ∈ o, P v := by
  cases o <;> simp [hd]

/-- A call that does no action sets no maximum. -/
theorem setsMax_or (hnone : op.action a = none) : op.SetsMax a ∨ capped ↔ capped := by
  simp [AdminOp.SetsMax, hnone]

theorem AdminConfig.Valid.alike {cfg cfg' : AdminConfig} (hv : cfg.Valid capped) (h : cfg.Alike cfg') :
    cfg'.Valid capped := by
  obtain ⟨hb, hc⟩ := hv
  constructor
  · constructor
    · rw [h.yieldBps]
      exact hb.yieldBps
    · rw [h.slashBps]
      exact hb.slashBps
    · rw [h.minLoanAmount]
      exact hb.minLoanAmount
    · rw [h.loanDuration]
      exact hb.loanDuration
    · rw [h.gracePeriod, h.loanDuration]
      exact hb.gracePeriod
    · rw [h.maxLoanToStakeRatio]
      exact hb.maxLoanToStakeRatio
    · rw [h.allowedTokens]
      exact hb.distinct
    · rw [h.token, h.allowedTokens]
      exact hb.notPrimary
  · unfold AdminConfig.SlashCapped
    rw [h.slashBps, h.loanSizeSlashMaxBps]
    exact hc

/-- A new slash rate is one, and at most the maximum. -/
theorem AdminConfig.Valid.slash_iff {cfg : AdminConfig} (hv : cfg.Valid capped) {v : Int} (hrate : 0 < v ∧ v ≤ 10000) :
    AdminConfig.Valid capped { cfg with slashBps := v } ↔ (capped → v ≤ cfg.loanSizeSlashMaxBps) := by
  obtain ⟨hb, hc⟩ := hv
  constructor
  · intro h hcapped
    exact (h.slashCapped hcapped).1
  · intro h
    exact ⟨{ hb with slashBps := hrate }, fun hcapped => ⟨h hcapped, (hc hcapped).2⟩⟩

/-- An action keeps the bounds exactly where it meets its condition. -/
theorem GovernanceAction.Done.config_iff (hv : a.config.Valid capped) (hd : action.Done a a') :
    a'.config.Valid (action.setsMax = true ∨ capped) ↔ action.KeepsConfig capped a.config := by
  have ⟨hb, hc⟩ := hv
  have hchecked := hd.checked
  rw [hd.config]
  cases action with
  | setLoanSizeSlashMaxBps maxBps => exact iff_of_true ⟨{ hb with }, fun _ => hchecked⟩ trivial
  | setSlashBps slashBps =>
    simp only [GovernanceAction.setsMax, Bool.false_eq_true, false_or]
    exact hv.slash_iff hchecked
  | setYieldBps yieldBps =>
    simp only [GovernanceAction.setsMax, Bool.false_eq_true, false_or]
    exact iff_of_true ⟨{ hb with yieldBps := hchecked }, hc⟩ trivial
  | setGracePeriod period =>
    simp only [GovernanceAction.setsMax, Bool.false_eq_true, false_or]
    exact iff_of_true ⟨{ hb with gracePeriod := hchecked }, hc⟩ trivial
  | setMaxLoanToStakeRatio ratio =>
    simp only [GovernanceAction.setsMax, Bool.false_eq_true, false_or]
    exact iff_of_true ⟨{ hb with maxLoanToStakeRatio := Nat.pos_of_ne_zero hchecked }, hc⟩ trivial
  | addAllowedToken token =>
    simp only [GovernanceAction.setsMax, Bool.false_eq_true, false_or]
    refine iff_of_true ⟨{ hb with distinct := ?_, notPrimary := ?_ }, hc⟩ trivial
    · exact (List.perm_append_singleton token _).nodup_iff.2 (List.nodup_cons.2 ⟨hchecked.1, hb.distinct⟩)
    · intro hmem
      rcases List.mem_append.1 hmem with hmem | hmem
      · exact hb.notPrimary hmem
      · exact hchecked.2 (List.mem_singleton.1 hmem).symm
  | removeAllowedToken token =>
    simp only [GovernanceAction.setsMax, Bool.false_eq_true, false_or]
    refine iff_of_true ⟨{ hb with distinct := ?_, notPrimary := ?_ }, hc⟩ trivial
    · exact hb.distinct.erase token
    · exact fun hmem => hb.notPrimary (List.mem_of_mem_erase hmem)
  | _ =>
    simp only [GovernanceAction.setsMax, Bool.false_eq_true, false_or]
    exact iff_of_true ⟨{ hb with }, hc⟩ trivial

theorem AdminOp.keepsConfig_of_isOther (h : op.isOther = true) : op.action a = none ∧ op.KeepsConfig capped a := by
  cases op <;> first | contradiction | exact ⟨rfl, fun _ h => by cases h⟩

/-- A call that goes through keeps the bounds exactly where it meets its condition. -/
theorem AdminEffect.config_iff (hrates : a.RatesSound) (hv : a.config.Valid capped) (he : AdminEffect a op a') :
    a'.config.Valid (op.SetsMax a ∨ capped) ↔ op.KeepsConfig capped a := by
  have ⟨hb, hc⟩ := hv
  -- a call that writes nothing of the configuration the bounds are about
  have hquiet : ∀ {cfg : AdminConfig}, op.action a = none → cfg.Valid capped → op.KeepsConfig capped a →
      (cfg.Valid (op.SetsMax a ∨ capped) ↔ op.KeepsConfig capped a) := by
    intro cfg hnone hvalid hkeeps
    rw [setsMax_or hnone]
    exact iff_of_true hvalid hkeeps
  have hyields : ∀ {o : Option Int}, (∀ v ∈ o, 0 ≤ v ∧ v ≤ 10000) →
      0 ≤ o.getD a.config.yieldBps ∧ o.getD a.config.yieldBps ≤ 10000 :=
    (getD_iff (P := fun v => 0 ≤ v ∧ v ≤ 10000) hb.yieldBps).2
  have hslashes : ∀ {o : Option Int}, (∀ v ∈ o, 0 < v ∧ v ≤ 10000) →
      0 < o.getD a.config.slashBps ∧ o.getD a.config.slashBps ≤ 10000 :=
    (getD_iff (P := fun v => 0 < v ∧ v ≤ 10000) hb.slashBps).2
  have hmax : ∀ {o : Option Int}, capped →
      (o.getD a.config.slashBps ≤ a.config.loanSizeSlashMaxBps ↔ ∀ v ∈ o, v ≤ a.config.loanSizeSlashMaxBps) :=
    fun hcapped => getD_iff (P := (· ≤ a.config.loanSizeSlashMaxBps)) (hc hcapped).1
  cases he with
  | other hother halike _ _ =>
    have ⟨hnone, hkeeps⟩ : op.action a = none ∧ op.KeepsConfig capped a := AdminOp.keepsConfig_of_isOther hother
    exact hquiet hnone (hv.alike halike) hkeeps
  | ran hdone =>
    have hiff := hdone.config_iff hv
    simpa [AdminOp.SetsMax, AdminOp.KeepsConfig, AdminOp.action] using hiff
  | executedAction hp _ hdone =>
    have hiff := hdone.config_iff hv
    simpa [AdminOp.SetsMax, AdminOp.KeepsConfig, AdminOp.action, hp] using hiff
  | executedQueued hp _ hdone =>
    have hiff := hdone.config_iff hv
    simpa [AdminOp.SetsMax, AdminOp.KeepsConfig, AdminOp.action, hp] using hiff
  | configured hcfg =>
    rw [setsMax_or rfl]
    constructor
    · intro h
      exact ⟨h.inBounds.distinct, h.inBounds.notPrimary, h.slashCapped⟩
    · rintro ⟨hdistinct, hnotPrimary, hcapped⟩
      exact ⟨⟨hcfg.yieldBps, hcfg.slashBps, hcfg.minLoanAmount, Nat.pos_of_ne_zero hcfg.loanDuration, hcfg.gracePeriod,
        Nat.pos_of_ne_zero hcfg.maxLoanToStakeRatio, hdistinct, hnotPrimary⟩, hcapped⟩
  | updated hyield hslash =>
    rw [setsMax_or rfl]
    constructor
    · intro h hcapped
      exact (hmax hcapped).1 (h.slashCapped hcapped).1
    · intro h
      refine ⟨{ hb with yieldBps := hyields hyield, slashBps := hslashes hslash }, fun hcapped => ?_⟩
      exact ⟨(hmax hcapped).2 (h hcapped), (hc hcapped).2⟩
  | @batchUpdated _ u hchecked =>
    rw [setsMax_or rfl]
    constructor
    · intro h
      refine ⟨fun hcapped => (hmax hcapped).1 (h.slashCapped hcapped).1, fun hnone v hv => ?_⟩
      have hgrace := h.inBounds.gracePeriod
      simpa [Admin.ConfigUpdate.write, hnone, Option.mem_def.1 hv] using hgrace
    · rintro ⟨hslash, hduration⟩
      refine ⟨{ hb with
        yieldBps := hyields hchecked.yieldBps
        slashBps := hslashes hchecked.slashBps
        minLoanAmount := (getD_iff (P := (0 < ·)) hb.minLoanAmount).2 hchecked.minLoanAmount
        loanDuration := Nat.pos_of_ne_zero ((getD_iff (P := (· ≠ 0)) hb.loanDuration.ne').2 hchecked.loanDuration)
        maxLoanToStakeRatio :=
          Nat.pos_of_ne_zero ((getD_iff (P := (· ≠ 0)) hb.maxLoanToStakeRatio.ne').2 hchecked.maxLoanToStakeRatio)
        gracePeriod := ?_ }, fun hcapped => ⟨(hmax hcapped).2 (hslash hcapped), (hc hcapped).2⟩⟩
      -- the grace period that is given was compared with the new duration, one that stays was not
      cases hgrace : u.gracePeriod with
      | none =>
        have hle := (getD_iff (P := (a.config.gracePeriod ≤ ·)) hb.gracePeriod).2 (hduration hgrace)
        simpa [Admin.ConfigUpdate.write, hgrace] using hle
      | some period =>
        have hle := hchecked.gracePeriod period hgrace
        simpa [Admin.ConfigUpdate.write, hgrace] using hle
  | executedChange hp hcfg =>
    rw [setsMax_or rfl]
    simp only [AdminOp.KeepsConfig, hp, hcfg, Option.mem_some_iff, forall_eq']
    exact ⟨fun h => ⟨h.inBounds, h.slashCapped⟩, fun h => ⟨h.1, h.2⟩⟩
  | finalizedRate hp hcfg =>
    rw [setsMax_or rfl]
    simp only [AdminOp.KeepsConfig, hp, Option.mem_some_iff, forall_eq']
    rcases hcfg with ⟨hwon, rfl⟩ | ⟨hlost, rfl⟩
    · rw [hv.slash_iff (hrates _ _ hp)]
      exact ⟨fun h _ => h, fun h => h hwon⟩
    · exact iff_of_true hv fun hwon => absurd hwon hlost
  | cancelledTimelock hop _ =>
    rcases hop with ⟨signers, rfl⟩ | ⟨caller, rfl⟩ <;> exact hquiet rfl hv fun _ h => by cases h
  | _ => exact hquiet rfl ⟨{ hb with }, hc⟩ fun _ h => by cases h

/-! ## Every run -/

theorem Deployment.config_valid (d : Deployment) : d.admin.config.Valid (MaxSet []) := by
  refine ⟨?_, fun h => ?_⟩
  · constructor <;> simp [Deployment.admin, Deployment.config]
  · obtain ⟨call, hcall, -⟩ := h
    cases hcall

theorem ProtocolHistory.ratesSound {h : List (ProtocolState × ProtocolEvent)} {s : ProtocolState}
    (hr : ProtocolHistory h s) : s.store.admin.RatesSound := by
  refine hr.admin_always (fun d id p hp => ?_) (fun _ _ hi => hi.congr rfl) fun hi he => hi.effect he
  cases hp

/-- The configuration is within its bounds after every step of a run exactly
where all calls of the run that go through meet their condition. -/
theorem config_stays_valid {h : List (ProtocolState × ProtocolEvent)} {s : ProtocolState} (hr : ProtocolHistory h s) :
    Always (fun h s => s.store.admin.config.Valid (MaxSet (adminCalls h))) h s ↔
      Throughout (fun h => protocol.WhenDone (OnAdmin fun a op => op.KeepsConfig (MaxSet (adminCalls h)) a)) h := by
  refine hr.calls_iff (P := fun calls a => a.config.Valid (MaxSet calls))
    (fun calls a op => op.KeepsConfig (MaxSet calls) a) Deployment.config_valid (fun _ _ _ hv => hv)
    fun {h s op a'} hr hv he => ?_
  have hset : MaxSet ((s.store.admin, op) :: adminCalls h) ↔ op.SetsMax s.store.admin ∨ MaxSet (adminCalls h) :=
    List.exists_mem_cons_iff ..
  rw [hset]
  exact he.config_iff hr.ratesSound hv

end

/-! ## A duration under the grace period -/

/-- A grace period of a week is set. -/
def graced : List (List Address × ProtocolOp) := [([1, 2], .admin (.direct [1, 2] (.setGracePeriod 604800)))]

theorem config_stays_valid_graced :
    Always (fun h s => s.store.admin.config.Valid (MaxSet (adminCalls h))) (protocol.trace adminStart [] graced)
      (protocol.play adminStart graced) :=
  (config_stays_valid (adminStart_history graced)).2
    (by decide +kernel)

/-- A loan duration of a day is set after it. -/
theorem duration_below_grace : ¬ ∀ h s, ProtocolHistory h s → s.store.admin.config.Valid (MaxSet (adminCalls h)) := by
  intro hclaim
  let shortened : Admin.ConfigUpdate := ⟨none, none, none, none, some 86400, none, none, none⟩
  have hvalid := hclaim _ _ (adminStart_history (graced ++ [([1, 2], .admin (.batchUpdateConfig [1, 2] shortened))]))
  exact absurd hvalid.inBounds (by decide +kernel)

end QuorumCredit
