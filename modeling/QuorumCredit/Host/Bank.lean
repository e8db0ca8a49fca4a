import QuorumCredit.Host.Tx
import Mathlib.Algebra.Group.Basic
/-!
# Token ledger

The token contracts a program talks to, as one ledger: the balance of every
account in every token, and the list of transfers made. The balances say what a
transfer needs; the list says who was paid what, which is how a statement about
"the amount paid to an account" is made over a whole run. A transfer follows the
token standard: a negative amount or a balance too small makes it fail, and what
it takes from one account it gives to the other.
-/

namespace Host

/-- One transfer of `amount` of `token` from `src` to `dst`. -/
structure Transfer (Tk Ac : Type) where
  token : Tk
  src : Ac
  dst : Ac
  amount : Int
deriving DecidableEq, Repr

/-- Balances, and the transfers that led to them, newest first. -/
structure Bank (Tk Ac : Type) where
  balance : Tk → Ac → Int
  log : List (Transfer Tk Ac)

namespace Bank

variable {Tk Ac : Type} [DecidableEq Tk] [DecidableEq Ac]

/-- The balance of one account changed by `delta`. -/
def credit (balance : Tk → Ac → Int) (token : Tk) (who : Ac) (delta : Int) : Tk → Ac → Int :=
  fun t a => if t = token ∧ a = who then balance t a + delta else balance t a

/-- The ledger after a transfer. -/
def move (b : Bank Tk Ac) (token : Tk) (src dst : Ac) (amount : Int) : Bank Tk Ac :=
  { balance := credit (credit b.balance token src (-amount)) token dst amount
    log := ⟨token, src, dst, amount⟩ :: b.log }

/-- The total `src` has sent `dst` in `token`. -/
def sent (log : List (Transfer Tk Ac)) (token : Tk) (src dst : Ac) : Int :=
  match log with
  | [] => 0
  | t :: ts => (if t.token = token ∧ t.src = src ∧ t.dst = dst then t.amount else 0) + sent ts token src dst

/-- The total `src` has sent, to anybody and in whatever token. -/
def outflow (log : List (Transfer Tk Ac)) (src : Ac) : Int :=
  match log with
  | [] => 0
  | t :: ts => (if t.src = src then t.amount else 0) + outflow ts src

variable {ω ε : Type}

/-- The standard's `transfer`; `e` is how a refused transfer surfaces. -/
def transfer (e : ε) (token : Tk) (src dst : Ac) (amount : Int) : Tx ω ε (Bank Tk Ac) Unit := do
  let held ← look (·.balance token src)
  require (0 ≤ amount ∧ amount ≤ held) e
  alter (·.move token src dst amount)

@[simp] theorem sent_move (b : Bank Tk Ac) (token token' : Tk) (src dst src' dst' : Ac) (amount : Int) :
    sent (b.move token src dst amount).log token' src' dst' =
      (if token = token' ∧ src = src' ∧ dst = dst' then amount else 0) + sent b.log token' src' dst' := rfl

theorem sent_paid (b : Bank Tk Ac) (token : Tk) (src dst : Ac) (amount : Int) :
    sent (b.move token src dst amount).log token src dst = sent b.log token src dst + amount := by
  rw [sent_move, if_pos ⟨rfl, rfl, rfl⟩, Int.add_comm]

@[simp] theorem outflow_move (b : Bank Tk Ac) (token : Tk) (src dst src' : Ac) (amount : Int) :
    outflow (b.move token src dst amount).log src' = (if src = src' then amount else 0) + outflow b.log src' := rfl

theorem outflow_paid (b : Bank Tk Ac) (token : Tk) (src dst : Ac) (amount : Int) :
    outflow (b.move token src dst amount).log src = outflow b.log src + amount := by
  rw [outflow_move, if_pos rfl, Int.add_comm]

@[simp] theorem yields_transfer (e : ε) (token : Tk) (src dst : Ac) (amount : Int) (w : ω) (b : Bank Tk Ac)
    (Q : Unit → Bank Tk Ac → Prop) :
    Yields (transfer e token src dst amount : Tx ω ε _ Unit) w b Q ↔
      (0 ≤ amount → amount ≤ b.balance token src → Q () (b.move token src dst amount)) := by
  simp [transfer]

end Bank

end Host
