import QuorumCredit.Frames
import QuorumCredit.Host.Goes
/-!
# What the guards let through

For the guards that many entry points share, the exact condition under which they
let a call through. They change nothing.
-/

open Host Function

namespace QuorumCredit

/-- Enough registered admins approve the call. -/
def Context.Approves (ctx : Context) (adminSigners : List Address) : Prop :=
  ctx.config.adminThreshold ≤ adminSigners.length ∧ ∀ a ∈ adminSigners,
    a ∈ ctx.config.admins ∧ ctx.revokedAdmin a = false ∧ a ∈ ctx.signers ∧ a ≠ ctx.contract

section

variable {σ : Type} {ctx : Context} {s : σ}

@[simp] theorem goes_requireAuth (who : Address) (Q : Unit → σ → Prop) :
    Goes (requireAuth who) ctx s Q ↔ (who ∈ ctx.signers ∧ who ≠ ctx.contract) ∧ Q () s := by
  simp [requireAuth]

@[simp] theorem goes_pay (token dst : Address) (amount : Int) (b : Ledger) (Q : Unit → Ledger → Prop) :
    Goes (pay token dst amount) ctx b Q ↔
      (0 ≤ amount ∧ amount ≤ b.balance token ctx.contract) ∧ Q () (b.move token ctx.contract dst amount) := by
  simp [pay]

@[simp] theorem goes_collect (token src : Address) (amount : Int) (b : Ledger) (Q : Unit → Ledger → Prop) :
    Goes (collect token src amount) ctx b Q ↔
      (0 ≤ amount ∧ amount ≤ b.balance token src) ∧ Q () (b.move token src ctx.contract amount) := by
  simp [collect]

theorem goes_requireSigners (signers : List Address) (Q : Unit → σ → Prop) :
    Goes (requireSigners signers) ctx s Q ↔
      (∀ a ∈ signers, a ∈ ctx.config.admins ∧ ctx.revokedAdmin a = false ∧ a ∈ ctx.signers ∧ a ≠ ctx.contract) ∧
        Q () s := by
  induction signers with
  | nil => simp [requireSigners]
  | cons signer rest ih =>
    simp only [requireSigners, requireAuth, goes_bind, goes_ask, goes_require, ih, List.forall_mem_cons, and_assoc]

@[simp] theorem goes_approved (adminSigners : List Address) (Q : Unit → σ → Prop) :
    Goes (requireAdminApproval adminSigners) ctx s Q ↔ ctx.Approves adminSigners ∧ Q () s := by
  simp only [requireAdminApproval, goes_bind, goes_ask, goes_require, goes_requireSigners, Context.Approves, and_assoc]

@[simp] theorem yields_approved (adminSigners : List Address) (Q : Unit → σ → Prop) :
    Yields (requireAdminApproval adminSigners) ctx s Q ↔ (ctx.Approves adminSigners → Q () s) :=
  yields_of_goes (goes_approved adminSigners) Q

end

end QuorumCredit
