import QuorumCredit.EventCodec
import QuorumCredit.Host.Double
import QuorumCredit.Host.OrderedMap
/-!
# The server's loan projection

`loanProjector.ts`: the dashboard's loan records, built from the decoded events
of the indexer. A number of an event's value is read as a double.
-/

namespace QuorumCredit.Server

open Host
open Indexer (Json JsonField)

/-- The fields of an indexed event that are read here; `value` is the parsed text of the row. -/
structure IndexedEvent where
  ledgerClosedAt : String
  category : String
  action : String
  value : Json

inductive LoanStatus where
  | active
  | repaid
  | defaulted
  | none
deriving DecidableEq, Repr

structure RecordVouch where
  voucher : String
  stake : Int
  vouchTimestamp : Int
deriving DecidableEq, Repr

structure LoanRecord where
  id : Int
  borrower : String
  amount : Int
  amountRepaid : Int
  totalYield : Int
  status : LoanStatus
  createdAt : Int
  deadline : Int
  loanPurpose : String
  vouchers : List RecordVouch
deriving DecidableEq, Repr

/-- What JavaScript reads texts as: the number a text denotes, 0 if none, and the second of a
time. The rows of the indexer hold no numbers as texts. -/
structure Texts where
  number : String → Int
  seconds : String → Int

/-! ## The synthetic id -/

/-- `charCodeAt` of every position. -/
def charCodes (s : String) : List Nat :=
  s.toList.flatMap fun c =>
    if c.toNat < 0x10000 then [c.toNat]
    else [0xD800 + (c.toNat - 0x10000) / 0x400, 0xDC00 + (c.toNat - 0x10000) % 0x400]

/-- `| 0` -/
def toInt32 (x : Int) : Int := x.bmod (2 ^ 32)

def syntheticLoanId (borrower : String) : Nat :=
  ((charCodes borrower).foldl (fun hash code => toInt32 (hash * 31 + code)) 0).natAbs

/-! ## Applying an event -/

section

variable (js : Texts)

def num (v : Json) (key : String) : Int :=
  match v.get key with
  | some (.num n) => Double.ofInt n
  | some (.str s) => js.number s
  | _ => 0

def applyLoanFields (base : LoanRecord) (action : String) (v : Json) : Option LoanRecord :=
  match action with
  | "request" =>
    let deadline :=
      match v.get "deadline" with
      | some (.num n) => if 0 < Double.ofInt n then Double.ofInt n else base.deadline
      | some (.str s) => if 0 < js.number s then js.number s else base.deadline
      | _ => base.deadline
    let vouchers :=
      match v.get "vouchers" with
      | some (.strs addrs) => addrs.map fun addr => ⟨addr, 0, 0⟩
      | _ => base.vouchers
    let loanPurpose :=
      match v.get "loan_purpose" with
      | some (.str s) => s
      | _ => base.loanPurpose
    some { base with amount := num js v "amount_stroops", amountRepaid := 0, status := .active, loanPurpose, deadline,
                     vouchers }
  | "repay" =>
    let amountRepaid := Double.ofInt (base.amountRepaid + num js v "payment_stroops")
    let status := if amountRepaid ≥ base.amount ∧ base.amount > 0 then .repaid else base.status
    some { base with amountRepaid, status }
  | "slash" => some { base with status := .defaulted }
  | _ => none

/-- The loan id of an event as a number and as a key. Without one it is the synthetic id. -/
def loanId (v : Json) (borrower : String) : Int × String :=
  match v.get "loan_id" with
  | some (.num n) => (Double.ofInt n, Double.text (Double.ofInt n))
  | some (.str s) => (js.number s, s)
  | some (.strs items) => (js.number (",".intercalate items), ",".intercalate items)
  | _ => (syntheticLoanId borrower, Double.text (syntheticLoanId borrower))

end

/-- `LoanProjector`: the records under the texts of their ids. -/
abbrev LoanProjector := OrderedMap String LoanRecord

namespace LoanProjector

/-- The string under `borrower`, unless it is empty. -/
def borrowerOf (v : Json) : Option String :=
  match v.get "borrower" with
  | some (.str s) => if s = "" then none else some s
  | _ => none

/-- The record an event starts from: the one under its key, or a blank one. -/
def baseRecord (js : Texts) (byLoanId : LoanProjector) (event : IndexedEvent) (borrower : String) : LoanRecord :=
  (OrderedMap.get byLoanId (loanId js event.value borrower).2).getD
    { id := (loanId js event.value borrower).1, borrower, amount := 0, amountRepaid := 0, totalYield := 0
      status := .none, createdAt := js.seconds event.ledgerClosedAt, deadline := 0, loanPurpose := "", vouchers := [] }

def applyEvent (js : Texts) (byLoanId : LoanProjector) (event : IndexedEvent) : LoanProjector × Option LoanRecord :=
  if event.category ≠ "loan" then (byLoanId, none)
  else
    match borrowerOf event.value with
    | none => (byLoanId, none)
    | some borrower =>
      match applyLoanFields js (baseRecord js byLoanId event borrower) event.action event.value with
      | none => (byLoanId, none)
      | some updated => (OrderedMap.set byLoanId (loanId js event.value borrower).2 updated, some updated)

def getAll (byLoanId : LoanProjector) : List LoanRecord := byLoanId.values

/-- The first record of the borrower, in the order of the map. -/
def get (byLoanId : LoanProjector) (borrower : String) : Option LoanRecord :=
  byLoanId.getAll.find? (·.borrower = borrower)

end LoanProjector

end QuorumCredit.Server
