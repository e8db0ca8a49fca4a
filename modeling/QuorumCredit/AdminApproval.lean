import QuorumCredit.AdminTypes
/-!
# Approval by the administration

The gates of `helpers.rs` and `rbac.rs` that the calls of the administration go
through. The host accepts one authorisation of an address in an invocation: a
second `require_auth` by the same address ends it. So a list of signers that
passes a gate has no address twice.
-/

open Host Function

namespace QuorumCredit

namespace Admin

/-- `who.require_auth()`, which goes through once for each address. -/
def requireAuth (who : Address) : AdminTx Unit := do
  let ctx ← ask
  require (who ∈ ctx.signers ∧ who ≠ ctx.contract) (.unauthorized who)
  let authorised ← look (·.authorised)
  require (who ∉ authorised) (.unauthorized who)
  alter fun g => { g with authorised := who :: authorised }

/-- The loop of a gate: every signer passes `check` and authorises the call. -/
def authorizeEach (check : Address → AdminTx Unit) : List Address → AdminTx Unit
  | [] => return ()
  | signer :: rest => do
    check signer
    requireAuth signer
    authorizeEach check rest

def config : AdminTx AdminConfig := look (·.admin.config)

def isRevoked (admin : Address) : AdminTx Bool := look (·.admin.revokedAdmin admin)

/-- What `require_admin_approval` asks of a signer. -/
def checkActiveAdmin (cfg : AdminConfig) (signer : Address) : AdminTx Unit := do
  require (signer ∈ cfg.admins) (.assertion "signer is not a registered admin")
  let revoked ← isRevoked signer
  require (revoked = false) (.assertion "signer has been emergency-revoked")

def requireAdminApproval (adminSigners : List Address) : AdminTx Unit := do
  let cfg ← config
  require (cfg.adminThreshold ≤ adminSigners.length) (.assertion "insufficient admin approvals")
  authorizeEach (checkActiveAdmin cfg) adminSigners

end Admin

/-- The threshold of an operation: its tier's, where tiers are configured. -/
def AdminStore.requiredThreshold (a : AdminStore) (operationType : AdminOperationType) : Nat :=
  match a.multiTierThresholds with
  | some multiTier => multiTier.getThreshold operationType
  | none => a.config.adminThreshold

namespace Admin

/-- What `require_admin_approval_for_operation` asks of a signer: not whether the key was revoked. -/
def checkRegisteredAdmin (cfg : AdminConfig) (signer : Address) : AdminTx Unit :=
  require (signer ∈ cfg.admins) (.assertion "signer is not a registered admin")

def requireAdminApprovalForOperation (adminSigners : List Address) (operationType : AdminOperationType) :
    AdminTx Unit := do
  let cfg ← config
  let requiredThreshold ← look fun g => g.admin.requiredThreshold operationType
  require (requiredThreshold ≤ adminSigners.length) (.assertion "insufficient admin approvals for this operation type")
  authorizeEach (checkRegisteredAdmin cfg) adminSigners

/-- `get_admin_role`. -/
def getAdminRole (raise : ContractError → Failure) (admin : Address) : AdminTx AdminRole := do
  let role ← look (·.admin.adminRole admin)
  orFail role (raise .permissionDenied)

/-- What `require_admin_approval_with_permission` asks of a signer. -/
def checkPermittedAdmin (raise : ContractError → Failure) (cfg : AdminConfig) (requiredPermission : AdminPermission)
    (signer : Address) : AdminTx Unit := do
  require (signer ∈ cfg.admins) (raise .unauthorizedCaller)
  let revoked ← isRevoked signer
  require (revoked = false) (raise .unauthorizedCaller)
  let role ← getAdminRole raise signer
  require (checkAdminPermission role requiredPermission = true) (raise .permissionDenied)

/-- The gate for a permission. Its callers return its error or panic with it, as `raise` says. -/
def requireAdminApprovalWithPermission (raise : ContractError → Failure) (adminSigners : List Address)
    (requiredPermission : AdminPermission) : AdminTx Unit := do
  let cfg ← config
  require (cfg.adminThreshold ≤ adminSigners.length) (raise .unauthorizedCaller)
  authorizeEach (checkPermittedAdmin raise cfg requiredPermission) adminSigners

def requireAdminApprovalForAction (raise : ContractError → Failure) (adminSigners : List Address)
    (action : AdminAction) : AdminTx Unit :=
  requireAdminApprovalWithPermission raise adminSigners (getRequiredPermission action)

/-- `first_admin_signer`, which the events of the calls name. -/
def firstAdminSigner (adminSigners : List Address) : AdminTx Address :=
  orFail adminSigners.head? (.panic .emptySignerList)

end Admin

open Admin

/-! ## What passing a gate takes -/

namespace Governed

/-- The state after the signers have authorised the call. -/
def authorise (g : Governed) (signers : List Address) : Governed :=
  { g with authorised := signers.reverse ++ g.authorised }

@[simp] theorem authorise_admin (g : Governed) (signers : List Address) : (g.authorise signers).admin = g.admin := rfl

@[simp] theorem authorise_access (g : Governed) (signers : List Address) :
    (g.authorise signers).access = g.access := rfl

@[simp] theorem authorise_bank (g : Governed) (signers : List Address) : (g.authorise signers).bank = g.bank := rfl

@[simp] theorem context_authorise (g : Governed) (signers : List Address) (ctx : AdminContext) :
    (g.authorise signers).context ctx = g.context ctx := rfl

/-- All of `signers` can authorise the call: none is named twice, each has
signed it, and none has authorised it already. -/
structure CanAuthorise (ctx : AdminContext) (g : Governed) (signers : List Address) : Prop where
  nodup : signers.Nodup
  signed : ∀ a ∈ signers, a ∈ ctx.signers
  outside : ∀ a ∈ signers, a ≠ ctx.contract
  unused : ∀ a ∈ signers, a ∉ g.authorised

instance (ctx : AdminContext) (g : Governed) (signers : List Address) : Decidable (g.CanAuthorise ctx signers) :=
  decidable_of_iff
    (signers.Nodup ∧ (∀ a ∈ signers, a ∈ ctx.signers) ∧ (∀ a ∈ signers, a ≠ ctx.contract) ∧
      ∀ a ∈ signers, a ∉ g.authorised)
    ⟨fun h => ⟨h.1, h.2.1, h.2.2.1, h.2.2.2⟩, fun h => ⟨h.nodup, h.signed, h.outside, h.unused⟩⟩

variable {ctx : AdminContext} {g : Governed}

theorem CanAuthorise.nil : g.CanAuthorise ctx [] := by
  constructor <;> simp

/-- The signers authorise the call one after another. -/
theorem canAuthorise_cons {a : Address} {rest : List Address} :
    g.CanAuthorise ctx (a :: rest) ↔
      (a ∈ ctx.signers ∧ a ≠ ctx.contract) ∧ a ∉ g.authorised ∧ (g.authorise [a]).CanAuthorise ctx rest := by
  constructor
  · intro h
    obtain ⟨hfresh, hrest⟩ := List.nodup_cons.1 h.nodup
    refine ⟨⟨h.signed a (by simp), h.outside a (by simp)⟩, h.unused a (by simp), hrest, fun b hb => ?_, fun b hb => ?_,
      fun b hb => ?_⟩
    · exact h.signed b (List.mem_cons_of_mem _ hb)
    · exact h.outside b (List.mem_cons_of_mem _ hb)
    · intro hused
      rcases List.mem_cons.1 hused with rfl | hused
      · exact hfresh hb
      · exact h.unused b (List.mem_cons_of_mem _ hb) hused
  · rintro ⟨⟨hsigned, houtside⟩, hunused, hrest⟩
    refine ⟨List.nodup_cons.2 ⟨fun hmem => ?_, hrest.nodup⟩, ?_, ?_, ?_⟩
    · exact hrest.unused a hmem List.mem_cons_self
    · exact List.forall_mem_cons.2 ⟨hsigned, hrest.signed⟩
    · exact List.forall_mem_cons.2 ⟨houtside, hrest.outside⟩
    · refine List.forall_mem_cons.2 ⟨hunused, fun b hb hused => ?_⟩
      exact hrest.unused b hb (List.mem_cons_of_mem _ hused)

end Governed

section

variable {ctx : AdminContext} {g : Governed} {Q : Unit → Governed → Prop}

@[simp] theorem Admin.goes_requireAuth (who : Address) :
    Goes (Admin.requireAuth who) ctx g Q ↔
      ((who ∈ ctx.signers ∧ who ≠ ctx.contract) ∧ who ∉ g.authorised) ∧ Q () (g.authorise [who]) := by
  simp [Admin.requireAuth, Governed.authorise, and_assoc]

/-- Where `check` is a condition that no authorisation changes, the loop goes
through if every signer meets it and can authorise the call. -/
theorem goes_authorizeEach {check : Address → AdminTx Unit} {P : Address → Governed → Prop}
    (hcheck : ∀ a g Q, Goes (check a) ctx g Q ↔ P a g ∧ Q () g) (hsame : ∀ a b g, P a (g.authorise [b]) ↔ P a g)
    (signers : List Address) :
    Goes (authorizeEach check signers) ctx g Q ↔
      ((∀ a ∈ signers, P a g) ∧ g.CanAuthorise ctx signers) ∧ Q () (g.authorise signers) := by
  induction signers generalizing g with
  | nil => simp [authorizeEach, Governed.CanAuthorise.nil, Governed.authorise]
  | cons a rest ih =>
    have hstate : (g.authorise [a]).authorise rest = g.authorise (a :: rest) := by
      simp [Governed.authorise]
    simp only [authorizeEach, goes_bind, hcheck, Admin.goes_requireAuth, ih, hstate, hsame,
      List.forall_mem_cons, Governed.canAuthorise_cons]
    tauto

end

/-- The signers are registered, not revoked, have a role with the permission,
are as many as the threshold asks for, and authorise the call. -/
structure Governed.Approves (ctx : AdminContext) (g : Governed) (permission : AdminPermission)
    (signers : List Address) : Prop extends g.CanAuthorise ctx signers where
  enough : g.admin.config.adminThreshold ≤ signers.length
  registered : ∀ a ∈ signers, a ∈ g.admin.config.admins
  notRevoked : ∀ a ∈ signers, g.admin.revokedAdmin a = false
  permitted : ∀ a ∈ signers, ∃ role, g.admin.adminRole a = some role ∧ checkAdminPermission role permission = true

section

variable {ctx : AdminContext} {g : Governed} {Q : Unit → Governed → Prop}

theorem goes_checkActiveAdmin (cfg : AdminConfig) (a : Address) (g : Governed) (Q : Unit → Governed → Prop) :
    Goes (checkActiveAdmin cfg a) ctx g Q ↔ (a ∈ cfg.admins ∧ g.admin.revokedAdmin a = false) ∧ Q () g := by
  simp [checkActiveAdmin, isRevoked, and_assoc]

theorem goes_requireAdminApproval (signers : List Address) :
    Goes (Admin.requireAdminApproval signers) ctx g Q ↔
      (g.admin.config.adminThreshold ≤ signers.length ∧
        (∀ a ∈ signers, a ∈ g.admin.config.admins ∧ g.admin.revokedAdmin a = false) ∧ g.CanAuthorise ctx signers) ∧
        Q () (g.authorise signers) := by
  simp only [Admin.requireAdminApproval, Admin.config, goes_bind, goes_look, goes_require]
  rw [goes_authorizeEach (goes_checkActiveAdmin _) fun _ _ _ => Iff.rfl]
  simp only [and_assoc]

theorem goes_checkRegisteredAdmin (cfg : AdminConfig) (a : Address) (g : Governed) (Q : Unit → Governed → Prop) :
    Goes (checkRegisteredAdmin cfg a) ctx g Q ↔ a ∈ cfg.admins ∧ Q () g :=
  goes_require ..

theorem goes_requireAdminApprovalForOperation (signers : List Address) (operationType : AdminOperationType) :
    Goes (requireAdminApprovalForOperation signers operationType) ctx g Q ↔
      (g.admin.requiredThreshold operationType ≤ signers.length ∧
        (∀ a ∈ signers, a ∈ g.admin.config.admins) ∧ g.CanAuthorise ctx signers) ∧ Q () (g.authorise signers) := by
  simp only [requireAdminApprovalForOperation, Admin.config, goes_bind, goes_look, goes_require]
  rw [goes_authorizeEach (goes_checkRegisteredAdmin _) fun _ _ _ => Iff.rfl]
  simp only [and_assoc]

theorem goes_checkPermittedAdmin (raise : ContractError → Failure) (cfg : AdminConfig) (permission : AdminPermission)
    (a : Address) (g : Governed) (Q : Unit → Governed → Prop) :
    Goes (checkPermittedAdmin raise cfg permission a) ctx g Q ↔
      ((a ∈ cfg.admins ∧ g.admin.revokedAdmin a = false) ∧
        ∃ role, g.admin.adminRole a = some role ∧ checkAdminPermission role permission = true) ∧ Q () g := by
  simp only [checkPermittedAdmin, getAdminRole, isRevoked, goes_bind, goes_require, goes_look, goes_orFail]
  constructor
  · rintro ⟨hmem, hrevoked, role, hrole, hperm, hq⟩
    exact ⟨⟨⟨hmem, hrevoked⟩, role, hrole, hperm⟩, hq⟩
  · rintro ⟨⟨⟨hmem, hrevoked⟩, role, hrole, hperm⟩, hq⟩
    exact ⟨hmem, hrevoked, role, hrole, hperm, hq⟩

@[simp] theorem goes_requireAdminApprovalWithPermission (raise : ContractError → Failure) (signers : List Address)
    (permission : AdminPermission) :
    Goes (requireAdminApprovalWithPermission raise signers permission) ctx g Q ↔
      g.Approves ctx permission signers ∧ Q () (g.authorise signers) := by
  simp only [requireAdminApprovalWithPermission, Admin.config, goes_bind, goes_look, goes_require]
  rw [goes_authorizeEach (goes_checkPermittedAdmin _ _ _) fun _ _ _ => Iff.rfl, ← and_assoc]
  refine and_congr_left fun _ => ?_
  constructor
  · rintro ⟨henough, heach, hauth⟩
    exact ⟨hauth, henough, fun a ha => (heach a ha).1.1, fun a ha => (heach a ha).1.2, fun a ha => (heach a ha).2⟩
  · intro h
    refine ⟨h.enough, fun a ha => ?_, h.toCanAuthorise⟩
    exact ⟨⟨h.registered a ha, h.notRevoked a ha⟩, h.permitted a ha⟩

@[simp] theorem goes_requireAdminApprovalForAction (raise : ContractError → Failure) (signers : List Address)
    (action : AdminAction) :
    Goes (requireAdminApprovalForAction raise signers action) ctx g Q ↔
      g.Approves ctx (getRequiredPermission action) signers ∧ Q () (g.authorise signers) :=
  goes_requireAdminApprovalWithPermission ..

@[simp] theorem goes_firstAdminSigner (signers : List Address) (Q : Address → Governed → Prop) :
    Goes (firstAdminSigner signers) ctx g Q ↔ ∃ a, signers.head? = some a ∧ Q a g := by
  simp [firstAdminSigner]

end

end QuorumCredit
