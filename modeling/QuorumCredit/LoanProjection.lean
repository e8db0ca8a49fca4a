import QuorumCredit.LoanProjector
import QuorumCredit.Host.Run
import QuorumCredit.Host.Xdr
import Mathlib.Logic.Function.Basic
/-!
# The loan projection against its events

The loans that a sequence of request, repay and slash events is about, kept by
loan id, and the projection of the same events. A repay or slash event carries no
loan id, so the projector looks for its record under the synthetic id of the
borrower; and a record's borrower is that of the first request with its id. The
two agree exactly as long as that does no harm.
-/

open Function

namespace QuorumCredit.Server

open Host
open Xdr (bigEndian)
open Indexer (JsonField simplifyLoanRequest simplifyLoanPayment u64FromBytes decodeAddress i128FromHex)

/-! ## The events -/

inductive LoanEvent where
  | request (id : Nat) (borrower : String) (amount : Int)
  | repay (borrower : String) (payment : Int)
  | slash (borrower : String)

/-- The event has the value that the indexer writes for what happened. -/
inductive Written : IndexedEvent → LoanEvent → Prop
  | request {e raw} : e.category = "loan" → e.action = "request" → simplifyLoanRequest raw = some e.value →
      Written e (.request (u64FromBytes raw 0) (decodeAddress ((raw.take 48).drop 16)) (i128FromHex raw))
  | repay {e raw} : e.category = "loan" → e.action = "repay" → simplifyLoanPayment raw = some e.value →
      Written e (.repay (decodeAddress (raw.take 32)) (i128FromHex raw))
  | slash {e raw} : e.category = "loan" → e.action = "slash" → simplifyLoanPayment raw = some e.value →
      Written e (.slash (decodeAddress (raw.take 32)))

/-! ## The loans -/

structure Loan where
  borrower : String
  amount : Int
  repaid : Int
  reached : Bool
  slashed : Bool
deriving DecidableEq

structure LoanLedger where
  loans : Nat → Option Loan
  current : String → Option Nat

namespace LoanLedger

def empty : LoanLedger := ⟨fun _ => none, fun _ => none⟩

/-- A loan becomes its borrower's current one. -/
def put (b : LoanLedger) (id : Nat) (l : Loan) : LoanLedger where
  loans := update b.loans id (some l)
  current := update b.current l.borrower (some id)

/-- A change of the borrower's current loan. -/
def amend (b : LoanLedger) (borrower : String) (f : Loan → Loan) : LoanLedger :=
  match b.current borrower with
  | none => b
  | some id => { b with loans := update b.loans id ((b.loans id).map f) }

section

variable (b : LoanLedger) {id' : Nat} {borrower : String}

theorem loans_put_self (id : Nat) (l : Loan) : (b.put id l).loans id = some l := update_self ..

theorem loans_put_of_ne {id : Nat} (l : Loan) (h : id' ≠ id) : (b.put id l).loans id' = b.loans id' :=
  update_of_ne h ..

theorem current_put_self (id : Nat) (l : Loan) : (b.put id l).current l.borrower = some id := update_self ..

theorem current_put_of_ne (id : Nat) {l : Loan} (h : borrower ≠ l.borrower) :
    (b.put id l).current borrower = b.current borrower :=
  update_of_ne h ..

theorem put_self {id : Nat} {l : Loan} (hl : b.loans id = some l) (hcurrent : b.current l.borrower = some id) :
    b.put id l = b := by
  simp only [put, ← hl, ← hcurrent, update_eq_self]

/-- A change of a current loan that leaves its borrower. -/
theorem amend_eq {id : Nat} {l : Loan} {f : Loan → Loan} (hcurrent : b.current borrower = some id)
    (hl : b.loans id = some l) (hf : (f l).borrower = borrower) : b.amend borrower f = b.put id (f l) := by
  have hsame : update b.current (f l).borrower (some id) = b.current := by
    rw [hf, ← hcurrent, update_eq_self]
  simp only [amend, put, hcurrent, hl, hsame, Option.map_some]

end

end LoanLedger

def Loan.credited (payment : Int) (l : Loan) : Loan :=
  { l with repaid := l.repaid + payment, reached := l.reached || decide (l.amount ≤ l.repaid + payment) }

def Loan.defaulted (l : Loan) : Loan := { l with slashed := true }

def LoanLedger.apply (b : LoanLedger) : LoanEvent → LoanLedger
  | .request id borrower amount => b.put id ⟨borrower, amount, 0, decide (amount ≤ 0), false⟩
  | .repay borrower payment => b.amend borrower (Loan.credited payment)
  | .slash borrower => b.amend borrower Loan.defaulted

/-- A repay or slash event follows a request of its borrower. -/
def LoanEvent.Follows (b : LoanLedger) : LoanEvent → Prop
  | .request _ _ _ => True
  | .repay borrower _ => (b.current borrower).isSome
  | .slash borrower => (b.current borrower).isSome

/-! ## Agreement -/

/-- Repaid once the amount was reached, defaulted after a slash, active otherwise; both are left
open for a loan that has seen both. -/
def Loan.Shows (l : Loan) (status : LoanStatus) : Prop :=
  status = .repaid ∧ l.reached = true ∨ status = .defaulted ∧ l.slashed = true ∨
    status = .active ∧ l.reached = false ∧ l.slashed = false

structure Loan.Matches (l : Loan) (r : LoanRecord) : Prop where
  borrower : r.borrower = l.borrower
  amount : r.amount = l.amount
  repaid : r.amountRepaid = l.repaid
  status : l.Shows r.status

/-- One record for each requested loan, which says what happened to it, and the current loan of
every borrower. -/
structure Agrees (p : LoanProjector) (b : LoanLedger) : Prop where
  nodup : (p.getAll.map LoanRecord.id).Nodup
  ids : ∀ x : Int, x ∈ p.getAll.map LoanRecord.id ↔ ∃ id : Nat, x = id ∧ ∃ l, b.loans id = some l
  record : ∀ r ∈ p.getAll, ∀ (id : Nat) l, r.id = id → b.loans id = some l → l.Matches r
  current : ∀ borrower id, b.current borrower = some id → ∃ r, p.get borrower = some r ∧ r.id = id

/-! ## Runs -/

structure Projecting where
  projector : LoanProjector
  ledger : LoanLedger

def Projecting.start : Projecting := ⟨OrderedMap.empty, LoanLedger.empty⟩

/-- One event that the indexer wrote is applied. -/
inductive Projecting.Step (js : Texts) : Projecting → LoanEvent → Projecting → Prop
  | event {s e l} : Written e l → l.Follows s.ledger →
      Step js s l ⟨(s.projector.applyEvent js e).1, s.ledger.apply l⟩

def Projected (_ : List (Projecting × LoanEvent)) (s : Projecting) : Prop := Agrees s.projector s.ledger

/-- A request is for a positive amount, its numbers are doubles, its borrower has no loan with
another id and no other borrower has one with its id. The synthetic id of a borrower that repays
or is slashed is the id of its loan, and the new sum is a double; or it is the id of another loan
and nothing is paid, or that loan was slashed before and the borrower's own is not active. -/
def Traced (b : LoanLedger) : LoanEvent → Prop
  | .request id borrower amount => borrower ≠ "" ∧ 0 < amount ∧ Double.ofNat id = id ∧ Double.ofInt amount = amount ∧
      ∀ id' l, b.loans id' = some l → (id' = id ↔ l.borrower = borrower)
  | .repay borrower payment => ∀ id l, b.current borrower = some id → b.loans id = some l →
      syntheticLoanId borrower = id ∧ Double.ofInt (l.repaid + Double.ofInt payment) = l.repaid + payment ∨
        syntheticLoanId borrower ≠ id ∧ payment = 0 ∧ ∃ l', b.loans (syntheticLoanId borrower) = some l'
  | .slash borrower => ∀ id l, b.current borrower = some id → b.loans id = some l →
      syntheticLoanId borrower = id ∨
        (l.reached = true ∨ l.slashed = true) ∧
          ∃ l', b.loans (syntheticLoanId borrower) = some l' ∧ l'.slashed = true

/-! ## What applying an event does -/

section

variable {raw : List UInt8} {v : Indexer.Json}

theorem slice_eq {lo hi : Nat} {bytes : List UInt8} (h : Indexer.slice raw lo (min hi raw.length) = some bytes) :
    bytes = (raw.take hi).drop lo := by
  unfold Indexer.slice at h
  split at h
  · cases h
    rw [← List.take_eq_take_min]
  · cases h

theorem ofInt_eq {n : Int} {field : JsonField} (h : JsonField.ofInt n = some field) : field = .num n := by
  unfold JsonField.ofInt at h
  split at h
  · exact (Option.some.inj h).symm
  · cases h

theorem request_fields (h : simplifyLoanRequest raw = some v) :
    v.get "borrower" = some (.str (decodeAddress ((raw.take 48).drop 16))) ∧
      v.get "loan_id" = some (.num (u64FromBytes raw 0)) ∧ v.get "amount_stroops" = some (.num (i128FromHex raw)) := by
  unfold simplifyLoanRequest at h
  simp only [Option.bind_eq_bind, Option.bind_eq_some_iff, Option.some.injEq] at h
  obtain ⟨borrower, hborrower, amount, hamount, rfl⟩ := h
  rw [slice_eq hborrower, ofInt_eq hamount]
  exact ⟨rfl, rfl, rfl⟩

theorem payment_fields (h : simplifyLoanPayment raw = some v) :
    v.get "borrower" = some (.str (decodeAddress (raw.take 32))) ∧ v.get "loan_id" = none ∧
      v.get "payment_stroops" = some (.num (i128FromHex raw)) := by
  unfold simplifyLoanPayment at h
  simp only [Option.bind_eq_bind, Option.bind_eq_some_iff, Option.some.injEq] at h
  obtain ⟨borrower, hborrower, payment, hpayment, rfl⟩ := h
  rw [slice_eq hborrower, ofInt_eq hpayment]
  exact ⟨rfl, rfl, rfl⟩

end

variable {borrower : String}

theorem Written.request_fields {e : IndexedEvent} {id : Nat} {amount : Int}
    (hw : Written e (.request id borrower amount)) :
    e.category = "loan" ∧ e.action = "request" ∧ e.value.get "borrower" = some (.str borrower) ∧
      e.value.get "loan_id" = some (.num id) ∧ e.value.get "amount_stroops" = some (.num amount) := by
  cases hw with
  | request hcategory haction hv => exact ⟨hcategory, haction, Server.request_fields hv⟩

theorem Written.repay_fields {e : IndexedEvent} {payment : Int} (hw : Written e (.repay borrower payment)) :
    e.category = "loan" ∧ e.action = "repay" ∧ e.value.get "borrower" = some (.str borrower) ∧
      e.value.get "loan_id" = none ∧ e.value.get "payment_stroops" = some (.num payment) := by
  cases hw with
  | repay hcategory haction hv => exact ⟨hcategory, haction, payment_fields hv⟩

theorem Written.slash_fields {e : IndexedEvent} (hw : Written e (.slash borrower)) :
    e.category = "loan" ∧ e.action = "slash" ∧ e.value.get "borrower" = some (.str borrower) ∧
      e.value.get "loan_id" = none := by
  cases hw with
  | slash hcategory haction hv => exact ⟨hcategory, haction, (payment_fields hv).1, (payment_fields hv).2.1⟩

/-- A payment on a record. -/
def LoanRecord.credited (payment : Int) (r : LoanRecord) : LoanRecord :=
  { r with amountRepaid := Double.ofInt (r.amountRepaid + payment)
           status := if Double.ofInt (r.amountRepaid + payment) ≥ r.amount ∧ r.amount > 0 then .repaid else r.status }

def LoanRecord.defaulted (r : LoanRecord) : LoanRecord := { r with status := .defaulted }

/-- The record under an id, or a blank one with it. -/
structure Based (p : LoanProjector) (id : Nat) (borrower : String) (base : LoanRecord) : Prop where
  found : ∀ r, OrderedMap.get p (Double.text id) = some r → base = r
  blank : OrderedMap.get p (Double.text id) = none → base.id = id ∧ base.borrower = borrower

section

variable (js : Texts) (p : LoanProjector) {e : IndexedEvent} {borrower : String}

theorem based {id : Nat} (hid : loanId js e.value borrower = ((id : Int), Double.text id)) :
    Based p id borrower (LoanProjector.baseRecord js p e borrower) := by
  unfold LoanProjector.baseRecord
  rw [hid]
  constructor
  · intro r hr
    rw [hr]
    rfl
  · intro hnone
    rw [hnone]
    exact ⟨rfl, rfl⟩

theorem borrowerOf_eq {v : Indexer.Json} (h : v.get "borrower" = some (.str borrower)) :
    LoanProjector.borrowerOf v = if borrower = "" then none else some borrower := by
  simp [LoanProjector.borrowerOf, h]

theorem applyEvent_eq (hcategory : e.category = "loan") (hborrower : e.value.get "borrower" = some (.str borrower))
    (hne : borrower ≠ "") {updated : LoanRecord}
    (hfields : applyLoanFields js (LoanProjector.baseRecord js p e borrower) e.action e.value = some updated) :
    (p.applyEvent js e).1 = OrderedMap.set p (loanId js e.value borrower).2 updated := by
  unfold LoanProjector.applyEvent
  rw [if_neg (not_not.2 hcategory), borrowerOf_eq hborrower, if_neg hne]
  simp only [hfields]

theorem applyEvent_request_empty {id : Nat} {amount : Int} (hw : Written e (.request id "" amount)) :
    (p.applyEvent js e).1 = p := by
  obtain ⟨hcategory, -, hborrower, -⟩ := hw.request_fields
  unfold LoanProjector.applyEvent
  rw [if_neg (not_not.2 hcategory), borrowerOf_eq hborrower, if_pos rfl]

theorem applyEvent_request {id : Nat} {amount : Int} (hw : Written e (.request id borrower amount))
    (hne : borrower ≠ "") : ∃ base r, Based p (Double.ofNat id) borrower base ∧
      (p.applyEvent js e).1 = OrderedMap.set p (Double.text (Double.ofNat id)) r ∧ r.id = base.id ∧
      r.borrower = base.borrower ∧ r.amount = Double.ofInt amount ∧ r.amountRepaid = 0 ∧ r.status = .active := by
  obtain ⟨hcategory, haction, hborrower, hid, hamount⟩ := hw.request_fields
  have hkey : loanId js e.value borrower = ((Double.ofNat id : Int), Double.text (Double.ofNat id)) := by
    simp [loanId, hid]
  have hnum : num js e.value "amount_stroops" = Double.ofInt amount := by simp [num, hamount]
  have hset := applyEvent_eq js p hcategory hborrower hne (by rw [haction]; rfl)
  rw [hkey] at hset
  exact ⟨_, _, based js p hkey, hset, rfl, rfl, hnum, rfl, rfl⟩

/-- A payment goes to the record under the synthetic id. -/
theorem applyEvent_repay {payment : Int} (hw : Written e (.repay borrower payment)) (hne : borrower ≠ "") :
    ∃ base, Based p (syntheticLoanId borrower) borrower base ∧
      (p.applyEvent js e).1 =
        OrderedMap.set p (Double.text (syntheticLoanId borrower)) (base.credited (Double.ofInt payment)) := by
  obtain ⟨hcategory, haction, hborrower, hid, hpayment⟩ := hw.repay_fields
  have hkey : loanId js e.value borrower =
      ((syntheticLoanId borrower : Int), Double.text (syntheticLoanId borrower)) := by
    simp [loanId, hid]
  have hnum : num js e.value "payment_stroops" = Double.ofInt payment := by simp [num, hpayment]
  have hset := applyEvent_eq js p hcategory hborrower hne (by rw [haction]; rfl)
  rw [hkey, hnum] at hset
  exact ⟨_, based js p hkey, hset⟩

theorem applyEvent_slash (hw : Written e (.slash borrower)) (hne : borrower ≠ "") :
    ∃ base, Based p (syntheticLoanId borrower) borrower base ∧
      (p.applyEvent js e).1 = OrderedMap.set p (Double.text (syntheticLoanId borrower)) base.defaulted := by
  obtain ⟨hcategory, haction, hborrower, hid⟩ := hw.slash_fields
  have hkey : loanId js e.value borrower =
      ((syntheticLoanId borrower : Int), Double.text (syntheticLoanId borrower)) := by
    simp [loanId, hid]
  have hset := applyEvent_eq js p hcategory hborrower hne (by rw [haction]; rfl)
  rw [hkey] at hset
  exact ⟨_, based js p hkey, hset⟩

end

/-- The synthetic id is a 32-bit number. -/
theorem ofNat_syntheticLoanId (borrower : String) :
    Double.ofNat (syntheticLoanId borrower) = syntheticLoanId borrower := by
  have hword : ∀ x, (toInt32 x).natAbs ≤ 2 ^ 31 := by
    intro x
    have hlo : -2 ^ 31 ≤ toInt32 x := Int.le_bmod (by norm_num : 0 < 2 ^ 32)
    have hhi : toInt32 x < 2 ^ 31 := Int.bmod_lt (by norm_num : 0 < 2 ^ 32)
    omega
  have hfold : ∀ (codes : List Nat) (hash : Int), hash.natAbs ≤ 2 ^ 31 →
      (codes.foldl (fun hash code => toInt32 (hash * 31 + code)) hash).natAbs ≤ 2 ^ 31 := by
    intro codes
    induction codes with
    | nil => exact fun _ h => h
    | cons code codes ih => exact fun hash _ => ih _ (hword _)
  apply Double.ofNat_of_lt
  have hle : syntheticLoanId borrower ≤ 2 ^ 31 := hfold _ 0 (by norm_num)
  omega

/-! ## The two together -/

structure Loan.Sound (l : Loan) : Prop where
  named : l.borrower ≠ ""
  positive : 0 < l.amount
  exactRepaid : Double.ofInt l.repaid = l.repaid
  reached : l.amount ≤ l.repaid → l.reached = true

/-- The records are those of the loans, no two of which have one borrower. -/
structure Tied (p : LoanProjector) (b : LoanLedger) : Prop where
  stored : ∀ id l, b.loans id = some l → ∃ r, OrderedMap.get p (Double.text id) = some r ∧ r.id = id ∧ l.Matches r
  requested : ∀ k r, OrderedMap.get p k = some r → ∃ (id : Nat) (l : Loan), k = Double.text id ∧ b.loans id = some l
  exact : ∀ id l, b.loans id = some l → Double.ofNat id = id
  sound : ∀ id l, b.loans id = some l → l.Sound
  current : ∀ id l, b.loans id = some l → b.current l.borrower = some id
  held : ∀ borrower id, b.current borrower = some id → ∃ l, b.loans id = some l ∧ l.borrower = borrower

namespace Tied

variable {p : LoanProjector} {b : LoanLedger}

theorem empty : Tied OrderedMap.empty LoanLedger.empty where
  stored _ _ h := by cases h
  requested _ _ h := by cases h
  exact _ _ h := by cases h
  sound _ _ h := by cases h
  current _ _ h := by cases h
  held _ _ h := by cases h

variable (ht : Tied p b)
include ht

variable {id : Nat}

theorem text_inj {id' : Nat} {l : Loan} (hl : b.loans id = some l) (hid' : Double.ofNat id' = id')
    (h : Double.text id' = Double.text id) : id' = id :=
  Double.text_inj hid' (ht.exact id l hl) h

/-- A record is that of the loan with its key. -/
theorem record {k : String} {r : LoanRecord} (hr : OrderedMap.get p k = some r) :
    ∃ (id : Nat) (l : Loan), k = Double.text id ∧ b.loans id = some l ∧ r.id = id ∧ l.Matches r := by
  obtain ⟨id, l, rfl, hl⟩ := ht.requested k r hr
  obtain ⟨r', hr', hid, hm⟩ := ht.stored id l hl
  rw [hr] at hr'
  cases hr'
  exact ⟨id, l, rfl, hl, hid, hm⟩

theorem agrees : Agrees p b where
  nodup := by
    refine OrderedMap.nodup_values_map _ fun k r k' r' hr hr' heq => ?_
    obtain ⟨id, l, rfl, -, hid, -⟩ := ht.record hr
    obtain ⟨id', l', rfl, -, hid', -⟩ := ht.record hr'
    have hsame : id = id' := by omega
    rw [hsame]
  ids x := by
    rw [List.mem_map]
    constructor
    · rintro ⟨r, hr, rfl⟩
      obtain ⟨k, hk⟩ := OrderedMap.mem_values.1 hr
      obtain ⟨id, l, -, hl, hid, -⟩ := ht.record hk
      exact ⟨id, hid, l, hl⟩
    · rintro ⟨id, rfl, l, hl⟩
      obtain ⟨r, hr, hid, -⟩ := ht.stored id l hl
      exact ⟨r, OrderedMap.mem_values.2 ⟨_, hr⟩, hid⟩
  record r hr id l hid hl := by
    obtain ⟨k, hk⟩ := OrderedMap.mem_values.1 hr
    obtain ⟨id', l', -, hl', hid', hm⟩ := ht.record hk
    obtain rfl : id' = id := by omega
    rw [hl] at hl'
    cases hl'
    exact hm
  current borrower id hcurrent := by
    obtain ⟨l, hl, hborrower⟩ := ht.held borrower id hcurrent
    obtain ⟨r, hr, hid, hm⟩ := ht.stored id l hl
    refine ⟨r, OrderedMap.find?_values hr (decide_eq_true (hm.borrower.trans hborrower)) ?_, hid⟩
    intro k r' hr' hborrower'
    obtain ⟨id', l', rfl, hl', -, hm'⟩ := ht.record hr'
    have hcurrent' := ht.current id' l' hl'
    rw [← hm'.borrower, of_decide_eq_true hborrower', hcurrent] at hcurrent'
    rw [Option.some.inj hcurrent']

/-- One loan is written, and its record. -/
theorem written {l : Loan} {r : LoanRecord} (hexact : Double.ofNat id = id) (hid : r.id = id) (hm : l.Matches r)
    (hs : l.Sound) (hone : ∀ id' l', b.loans id' = some l' → (id' = id ↔ l'.borrower = l.borrower)) :
    Tied (OrderedMap.set p (Double.text id) r) (b.put id l) where
  stored id' l' hl' := by
    by_cases hsame : id' = id
    · subst hsame
      rw [b.loans_put_self] at hl'
      cases hl'
      exact ⟨r, OrderedMap.get_set_self _ _ _, hid, hm⟩
    · rw [b.loans_put_of_ne _ hsame] at hl'
      have hne : Double.text id' ≠ Double.text id := fun h => hsame (ht.text_inj hl' hexact h.symm).symm
      rw [OrderedMap.get_set_of_ne _ _ hne]
      exact ht.stored id' l' hl'
  requested k r' hr' := by
    rw [OrderedMap.get_set] at hr'
    split at hr'
    case isTrue hk => exact ⟨id, l, hk, b.loans_put_self id l⟩
    case isFalse hk =>
      obtain ⟨id', l', rfl, hl'⟩ := ht.requested k r' hr'
      have hne : id' ≠ id := fun h => hk (by rw [h])
      exact ⟨id', l', rfl, by rw [b.loans_put_of_ne _ hne, hl']⟩
  exact id' l' hl' := by
    by_cases hsame : id' = id
    · rw [hsame, hexact]
    · rw [b.loans_put_of_ne _ hsame] at hl'
      exact ht.exact id' l' hl'
  sound id' l' hl' := by
    by_cases hsame : id' = id
    · rw [hsame, b.loans_put_self] at hl'
      cases hl'
      exact hs
    · rw [b.loans_put_of_ne _ hsame] at hl'
      exact ht.sound id' l' hl'
  current id' l' hl' := by
    by_cases hsame : id' = id
    · rw [hsame, b.loans_put_self] at hl'
      cases hl'
      rw [hsame, b.current_put_self]
    · rw [b.loans_put_of_ne _ hsame] at hl'
      have hne : l'.borrower ≠ l.borrower := fun h => hsame ((hone id' l' hl').2 h)
      rw [b.current_put_of_ne id hne]
      exact ht.current id' l' hl'
  held borrower id' hcurrent := by
    by_cases hsame : borrower = l.borrower
    · rw [hsame, b.current_put_self] at hcurrent
      cases hcurrent
      exact ⟨l, b.loans_put_self _ l, hsame.symm⟩
    · rw [b.current_put_of_ne id hsame] at hcurrent
      obtain ⟨l', hl', hborrower⟩ := ht.held borrower id' hcurrent
      have hne : id' ≠ id := by
        intro h
        exact hsame (hborrower.symm.trans ((hone id' l' hl').1 h))
      exact ⟨l', by rw [b.loans_put_of_ne _ hne, hl'], hborrower⟩

/-- A borrower has one loan. -/
theorem one {l : Loan} (hl : b.loans id = some l) {id' : Nat} {l' : Loan} (hl' : b.loans id' = some l') :
    id' = id ↔ l'.borrower = l.borrower := by
  constructor
  · rintro rfl
    rw [hl] at hl'
    cases hl'
    rfl
  · intro hborrower
    have hcurrent := ht.current id' l' hl'
    rw [hborrower, ht.current id l hl] at hcurrent
    exact (Option.some.inj hcurrent).symm

/-- A loan changes, and its record with it. -/
theorem amended {l l₁ : Loan} {r : LoanRecord} (hl : b.loans id = some l) (hborrower : l₁.borrower = l.borrower)
    (hid : r.id = id) (hm : l₁.Matches r) (hs : l₁.Sound) : Tied (OrderedMap.set p (Double.text id) r) (b.put id l₁) :=
  ht.written (ht.exact id l hl) hid hm hs fun _ _ hl' => by rw [hborrower, ht.one hl hl']

/-- A record is rewritten that still says the same. -/
theorem rewritten {l : Loan} {r : LoanRecord} (hl : b.loans id = some l) (hid : r.id = id) (hm : l.Matches r) :
    Tied (OrderedMap.set p (Double.text id) r) b := by
  have hput := ht.amended hl rfl hid hm (ht.sound id l hl)
  rwa [b.put_self hl (ht.current id l hl)] at hput

/-- A loan changes, and its record still says the same. -/
theorem reread {l l₁ : Loan} (hl : b.loans id = some l) (hborrower : l₁.borrower = l.borrower)
    (hm : ∀ r, l.Matches r → l₁.Matches r) (hs : l₁.Sound) : Tied p (b.put id l₁) := by
  obtain ⟨r, hr, hid, hmatches⟩ := ht.stored id l hl
  have hput := ht.amended hl hborrower hid (hm r hmatches) hs
  rwa [OrderedMap.set_get hr] at hput

/-- The record an event starts from is that of the loan with the id, if there is one. -/
theorem based_cases {borrower : String} {base : LoanRecord} (hb : Based p id borrower base)
    (hexact : Double.ofNat id = id) : base.id = id ∧
      ((∃ l, b.loans id = some l ∧ OrderedMap.get p (Double.text id) = some base ∧ l.Matches base) ∨
        b.loans id = none ∧ OrderedMap.get p (Double.text id) = none ∧ base.borrower = borrower) := by
  cases hget : OrderedMap.get p (Double.text id) with
  | some r =>
    obtain rfl := hb.found r hget
    obtain ⟨id', l, htext, hl, hid, hm⟩ := ht.record hget
    obtain rfl := ht.text_inj hl hexact htext
    exact ⟨hid, .inl ⟨l, hl, rfl, hm⟩⟩
  | none =>
    obtain ⟨hid, hborrower⟩ := hb.blank hget
    refine ⟨hid, .inr ⟨?_, rfl, hborrower⟩⟩
    cases hl : b.loans id with
    | none => rfl
    | some l =>
      obtain ⟨r, hr, -⟩ := ht.stored id l hl
      rw [hget] at hr
      cases hr

theorem based_of_loan {borrower : String} {base : LoanRecord} (hb : Based p id borrower base) {l : Loan}
    (hl : b.loans id = some l) : base.id = id ∧ l.Matches base := by
  obtain ⟨hid, hcases⟩ := ht.based_cases hb (ht.exact id l hl)
  rcases hcases with ⟨l', hl', -, hm⟩ | ⟨hnone, -⟩
  · rw [hl] at hl'
    cases hl'
    exact ⟨hid, hm⟩
  · rw [hl] at hnone
    cases hnone

end Tied

/-! ## Payments and defaults -/

section

variable {l : Loan} {r : LoanRecord} {payment : Int}

theorem Loan.Matches.credited (hm : l.Matches r) (hs : l.Sound)
    (hexact : Double.ofInt (l.repaid + Double.ofInt payment) = l.repaid + payment) :
    (l.credited payment).Matches (r.credited (Double.ofInt payment)) where
  borrower := hm.borrower
  amount := hm.amount
  repaid := by simp [LoanRecord.credited, Loan.credited, hm.repaid, hexact]
  status := by
    simp only [LoanRecord.credited, Loan.credited, Loan.Shows, hm.repaid, hm.amount, hexact]
    by_cases hreached : l.amount ≤ l.repaid + payment
    · simp [hreached, hs.positive]
    · simpa [hreached, Loan.Shows] using hm.status

theorem Loan.Sound.credited (hs : l.Sound)
    (hexact : Double.ofInt (l.repaid + Double.ofInt payment) = l.repaid + payment) : (l.credited payment).Sound where
  named := hs.named
  positive := hs.positive
  exactRepaid := by
    change Double.ofInt (l.repaid + payment) = l.repaid + payment
    rw [← hexact, Double.ofInt_ofInt]
  reached h := by
    change (l.reached || decide (l.amount ≤ l.repaid + payment)) = true
    have hle : l.amount ≤ l.repaid + payment := h
    rw [decide_eq_true hle, Bool.or_true]

/-- Paying nothing changes nothing. -/
theorem Loan.Sound.credited_zero (hs : l.Sound) : l.credited 0 = l := by
  have hreached : (l.reached || decide (l.amount ≤ l.repaid)) = l.reached := by
    by_cases h : l.amount ≤ l.repaid
    · simp [hs.reached h]
    · simp [h]
  simp only [Loan.credited, Int.add_zero, hreached]

theorem Loan.Matches.credited_zero (hm : l.Matches r) (hs : l.Sound) : l.Matches (r.credited 0) := by
  have hexact : Double.ofInt (l.repaid + Double.ofInt 0) = l.repaid + 0 := by simpa using hs.exactRepaid
  have hcredited := hm.credited hs hexact
  rwa [hs.credited_zero] at hcredited

theorem Loan.Matches.defaulted (hm : l.Matches r) (hslashed : l.slashed = true) : l.Matches r.defaulted :=
  ⟨hm.borrower, hm.amount, hm.repaid, .inr (.inl ⟨rfl, hslashed⟩)⟩

theorem Loan.Matches.of_defaulted (hm : l.Matches r) (hinactive : l.reached = true ∨ l.slashed = true) :
    l.defaulted.Matches r where
  borrower := hm.borrower
  amount := hm.amount
  repaid := hm.repaid
  status := by
    rcases hm.status with ⟨hstatus, hreached⟩ | ⟨hstatus, -⟩ | ⟨-, hnot, hnot'⟩
    · exact .inl ⟨hstatus, hreached⟩
    · exact .inr (.inl ⟨hstatus, rfl⟩)
    · simp [hnot, hnot'] at hinactive

theorem Loan.Sound.defaulted (hs : l.Sound) : l.defaulted.Sound := ⟨hs.named, hs.positive, hs.exactRepaid, hs.reached⟩

end

/-! ## One event -/

namespace Agrees

variable {p : LoanProjector} {b : LoanLedger} {k : String} {r : LoanRecord} {id : Nat}

theorem matches_of_get (ha : Agrees p b) (hr : OrderedMap.get p k = some r) (hid : r.id = id) {l : Loan}
    (hl : b.loans id = some l) : l.Matches r :=
  ha.record r (OrderedMap.mem_values.2 ⟨k, hr⟩) id l hid hl

theorem loan_of_get (ha : Agrees p b) (hr : OrderedMap.get p k = some r) (hid : r.id = id) :
    ∃ l, b.loans id = some l := by
  have hmem : r.id ∈ p.getAll.map LoanRecord.id := List.mem_map_of_mem (OrderedMap.mem_values.2 ⟨k, hr⟩)
  obtain ⟨id', hid', hl⟩ := (ha.ids _).1 hmem
  obtain rfl : id' = id := by omega
  exact hl

end Agrees

/-- The first record of a borrower is one of its records. -/
theorem LoanProjector.get_spec {p : LoanProjector} {r : LoanRecord} (h : p.get borrower = some r) :
    (∃ k, OrderedMap.get p k = some r) ∧ r.borrower = borrower := by
  unfold LoanProjector.get at h
  have hborrower := List.find?_some h
  exact ⟨OrderedMap.mem_values.1 (List.mem_of_find?_eq_some h), of_decide_eq_true hborrower⟩

namespace Tied

variable {p : LoanProjector} {b : LoanLedger} {e : IndexedEvent} {js : Texts} {borrower : String} {payment amount : Int}
  {id : Nat}

theorem request_applied (ht : Tied p b) (hw : Written e (.request id borrower amount))
    (hok : Traced b (.request id borrower amount)) :
    Tied (p.applyEvent js e).1 (b.apply (.request id borrower amount)) := by
  obtain ⟨hne, hpositive, hexact, hamount, hone⟩ := hok
  obtain ⟨base, r, hbased, hset, hid, hborrower, hamount', hrepaid, hstatus⟩ := applyEvent_request js p hw hne
  rw [hexact] at hbased hset
  obtain ⟨hbase, hcases⟩ := ht.based_cases hbased hexact
  have hnamed : r.borrower = borrower := by
    rcases hcases with ⟨l, hl, -, hm⟩ | ⟨-, -, hnew⟩
    · exact hborrower.trans (hm.borrower.trans ((hone id l hl).1 rfl))
    · exact hborrower.trans hnew
  rw [hset]
  refine ht.written hexact (hid.trans hbase) ⟨hnamed, hamount'.trans hamount, hrepaid, ?_⟩
    ⟨hne, hpositive, Double.ofInt_zero, fun h => absurd hpositive (Int.not_lt.2 h)⟩ hone
  exact .inr (.inr ⟨hstatus, decide_eq_false (Int.not_le.2 hpositive), rfl⟩)

theorem repay_applied (ht : Tied p b) (hw : Written e (.repay borrower payment))
    (hf : (LoanEvent.repay borrower payment).Follows b) (hok : Traced b (.repay borrower payment)) :
    Tied (p.applyEvent js e).1 (b.apply (.repay borrower payment)) := by
  obtain ⟨id, hcurrent⟩ := Option.isSome_iff_exists.1 hf
  obtain ⟨l, hl, rfl⟩ := ht.held borrower id hcurrent
  have hs := ht.sound id l hl
  obtain ⟨base, hbased, hset⟩ := applyEvent_repay js p hw hs.named
  rw [hset, show b.apply (.repay l.borrower payment) = b.amend l.borrower (Loan.credited payment) from rfl,
    b.amend_eq hcurrent hl rfl]
  rcases hok id l hcurrent hl with ⟨hsame, hexact⟩ | ⟨-, rfl, l', hl'⟩
  · rw [hsame] at hbased ⊢
    obtain ⟨hbase, hm⟩ := ht.based_of_loan hbased hl
    exact ht.amended hl rfl hbase (hm.credited hs hexact) (hs.credited hexact)
  -- nothing was paid, and nothing was added to another loan
  · obtain ⟨hbase, hm⟩ := ht.based_of_loan hbased hl'
    rw [hs.credited_zero, b.put_self hl (ht.current id l hl)]
    exact ht.rewritten hl' hbase (hm.credited_zero (ht.sound _ _ hl'))

theorem slash_applied (ht : Tied p b) (hw : Written e (.slash borrower))
    (hf : (LoanEvent.slash borrower).Follows b) (hok : Traced b (.slash borrower)) :
    Tied (p.applyEvent js e).1 (b.apply (.slash borrower)) := by
  obtain ⟨id, hcurrent⟩ := Option.isSome_iff_exists.1 hf
  obtain ⟨l, hl, rfl⟩ := ht.held borrower id hcurrent
  have hs := ht.sound id l hl
  obtain ⟨base, hbased, hset⟩ := applyEvent_slash js p hw hs.named
  rw [hset, show b.apply (.slash l.borrower) = b.amend l.borrower Loan.defaulted from rfl, b.amend_eq hcurrent hl rfl]
  rcases hok id l hcurrent hl with hsame | ⟨hinactive, l', hl', hslashed⟩
  · rw [hsame] at hbased ⊢
    obtain ⟨hbase, hm⟩ := ht.based_of_loan hbased hl
    exact ht.amended hl rfl hbase ⟨hm.borrower, hm.amount, hm.repaid, .inr (.inl ⟨rfl, rfl⟩)⟩ hs.defaulted
  -- the other loan was slashed before, and this one need not show it
  · obtain ⟨hbase, hm⟩ := ht.based_of_loan hbased hl'
    have hother := ht.rewritten (r := base.defaulted) hl' hbase (hm.defaulted hslashed)
    exact hother.reread hl (Eq.refl l.defaulted.borrower) (fun r hm => hm.of_defaulted hinactive) hs.defaulted

/-- A traced event is projected as it should be. -/
theorem applied (ht : Tied p b) {l : LoanEvent} (hw : Written e l) (hf : l.Follows b) (hok : Traced b l) :
    Tied (p.applyEvent js e).1 (b.apply l) := by
  cases l with
  | request id borrower amount => exact ht.request_applied hw hok
  | repay borrower payment => exact ht.repay_applied hw hf hok
  | slash borrower => exact ht.slash_applied hw hf hok

/-- The id of an agreeing record is held by a double, as its key is. -/
theorem exact_of_agrees (ht : Tied p b) {r : LoanRecord} {l : Loan} (hid : r.id = Double.ofNat id) {k : String}
    (ha : Agrees (OrderedMap.set p k r) (b.put id l)) : Double.ofNat id = id := by
  obtain ⟨r', hmem, hid'⟩ := List.mem_map.1 ((ha.ids id).2 ⟨id, rfl, _, b.loans_put_self id _⟩)
  obtain ⟨k', hk'⟩ := OrderedMap.mem_values.1 hmem
  rw [OrderedMap.get_set] at hk'
  split at hk'
  · cases hk'
    omega
  · obtain ⟨id'', l'', -, hl'', hid'', -⟩ := ht.record hk'
    have hsame : id'' = id := by omega
    rw [← hsame]
    exact ht.exact id'' l'' hl''

/-- Beside an older record of its borrower, a new one is never the current one. -/
theorem new_of_agrees (ht : Tied p b) {r : LoanRecord} {l : Loan}
    (ha : Agrees (OrderedMap.set p (Double.text id) r) (b.put id l)) (hnone : b.loans id = none)
    (hget : OrderedMap.get p (Double.text id) = none) {id' : Nat} {l' : Loan} (hl' : b.loans id' = some l') :
    l'.borrower ≠ l.borrower := by
  intro hsame
  obtain ⟨r₁, hget₁, hid₁⟩ := ha.current l.borrower id (b.current_put_self id l)
  obtain ⟨r₂, hget₂, -⟩ := ht.agrees.current l'.borrower id' (ht.current id' l' hl')
  -- the older record comes first
  have hfirst : LoanProjector.get (OrderedMap.set p (Double.text id) r) l.borrower = some r₂ := by
    rw [hsame] at hget₂
    unfold LoanProjector.get LoanProjector.getAll OrderedMap.values at hget₂ ⊢
    rw [OrderedMap.entries_set_of_new p hget, List.map_append, List.find?_append, hget₂]
    rfl
  rw [hfirst] at hget₁
  cases hget₁
  obtain ⟨⟨k, hk⟩, -⟩ := LoanProjector.get_spec hget₂
  obtain ⟨id₂, l₂, -, hl₂, hid₂, -⟩ := ht.record hk
  obtain rfl : id₂ = id := by omega
  rw [hnone] at hl₂
  cases hl₂

theorem request_traced (ht : Tied p b) (hw : Written e (.request id borrower amount))
    (ha : Agrees (p.applyEvent js e).1 (b.apply (.request id borrower amount))) :
    Traced b (.request id borrower amount) := by
  have hne : borrower ≠ "" := by
    rintro rfl
    obtain ⟨r, hget, -⟩ := ha.current "" id (b.current_put_self id _)
    rw [applyEvent_request_empty js p hw] at hget
    obtain ⟨⟨k, hk⟩, hempty⟩ := LoanProjector.get_spec hget
    obtain ⟨id', l', -, hl', -, hm⟩ := ht.record hk
    exact (ht.sound id' l' hl').named (hm.borrower.symm.trans hempty)
  obtain ⟨base, r, hbased, hset, hid, hborrower, hamount, -, hstatus⟩ := applyEvent_request js p hw hne
  obtain ⟨hbase, hcases⟩ := ht.based_cases hbased (Double.ofNat_ofNat id)
  rw [hset] at ha
  have hexact : Double.ofNat id = id := ht.exact_of_agrees (hid.trans hbase) ha
  rw [hexact] at hbase hcases ha
  have hm := ha.matches_of_get (OrderedMap.get_set_self _ _ _) (hid.trans hbase) (b.loans_put_self id _)
  refine ⟨hne, ?_, hexact, hamount.symm.trans hm.amount, ?_⟩
  · rcases hm.status with ⟨h, -⟩ | ⟨h, -⟩ | ⟨-, hreached, -⟩
    · rw [hstatus] at h
      cases h
    · rw [hstatus] at h
      cases h
    · exact Int.not_le.1 (of_decide_eq_false hreached)
  · intro id' l' hl'
    rcases hcases with ⟨l, hl, -, hmatches⟩ | ⟨hnone, hget, -⟩
    · have hsame : l.borrower = borrower := hmatches.borrower.symm.trans (hborrower.symm.trans hm.borrower)
      rw [← hsame]
      exact ht.one hl hl'
    · refine iff_of_false ?_ (ht.new_of_agrees ha hnone hget hl')
      rintro rfl
      rw [hnone] at hl'
      cases hl'

/-- With another record written, the loan's own one is as it was. -/
theorem matches_beside (ht : Tied p b) {id' : Nat} {l l₁ : Loan} {r' : LoanRecord} (hl : b.loans id = some l)
    (hexact : Double.ofNat id' = id') (hne : id' ≠ id)
    (ha : Agrees (OrderedMap.set p (Double.text id') r') (b.put id l₁)) : ∃ r, l.Matches r ∧ l₁.Matches r := by
  obtain ⟨r, hr, hid, hm⟩ := ht.stored id l hl
  have hkeys : Double.text id ≠ Double.text id' := fun h => hne (ht.text_inj hl hexact h.symm)
  exact ⟨r, hm, ha.matches_of_get (by rw [OrderedMap.get_set_of_ne _ _ hkeys, hr]) hid (b.loans_put_self id _)⟩

theorem repay_traced (ht : Tied p b) (hw : Written e (.repay borrower payment))
    (ha : Agrees (p.applyEvent js e).1 (b.apply (.repay borrower payment))) : Traced b (.repay borrower payment) := by
  intro id l hcurrent hl
  obtain ⟨l₀, hl₀, hborrower⟩ := ht.held borrower id hcurrent
  rw [hl] at hl₀
  cases hl₀
  subst hborrower
  obtain ⟨base, hbased, hset⟩ := applyEvent_repay js p hw (ht.sound id l hl).named
  obtain ⟨hbase, -⟩ := ht.based_cases hbased (ofNat_syntheticLoanId _)
  rw [hset, show b.apply (.repay l.borrower payment) = b.amend l.borrower (Loan.credited payment) from rfl,
    b.amend_eq hcurrent hl rfl] at ha
  by_cases hsame : syntheticLoanId l.borrower = id
  · rw [hsame] at hbased hbase ha
    have hm := (ht.based_of_loan hbased hl).2
    have hrepaid := (ha.matches_of_get (OrderedMap.get_set_self _ _ _) hbase (b.loans_put_self id _)).repaid
    rw [LoanRecord.credited, hm.repaid] at hrepaid
    exact .inl ⟨hsame, hrepaid⟩
  · obtain ⟨l', hl'⟩ := ha.loan_of_get (OrderedMap.get_set_self _ _ _) hbase
    rw [b.loans_put_of_ne _ hsame] at hl'
    obtain ⟨r, hm, hmatches⟩ := ht.matches_beside hl (ofNat_syntheticLoanId _) hsame ha
    have hrepaid := hmatches.repaid
    rw [hm.repaid] at hrepaid
    refine .inr ⟨hsame, ?_, l', hl'⟩
    change l.repaid = l.repaid + payment at hrepaid
    omega

theorem slash_traced (ht : Tied p b) (hw : Written e (.slash borrower))
    (ha : Agrees (p.applyEvent js e).1 (b.apply (.slash borrower))) : Traced b (.slash borrower) := by
  intro id l hcurrent hl
  obtain ⟨l₀, hl₀, hborrower⟩ := ht.held borrower id hcurrent
  rw [hl] at hl₀
  cases hl₀
  subst hborrower
  obtain ⟨base, hbased, hset⟩ := applyEvent_slash js p hw (ht.sound id l hl).named
  obtain ⟨hbase, -⟩ := ht.based_cases hbased (ofNat_syntheticLoanId _)
  rw [hset, show b.apply (.slash l.borrower) = b.amend l.borrower Loan.defaulted from rfl,
    b.amend_eq hcurrent hl rfl] at ha
  by_cases hsame : syntheticLoanId l.borrower = id
  · exact .inl hsame
  · obtain ⟨l', hl'⟩ := ha.loan_of_get (OrderedMap.get_set_self _ _ _) hbase
    have hdefaulted := (ha.matches_of_get (OrderedMap.get_set_self _ _ _) hbase hl').status
    rw [b.loans_put_of_ne _ hsame] at hl'
    obtain ⟨r, hm, hmatches⟩ := ht.matches_beside hl (ofNat_syntheticLoanId _) hsame ha
    have hstatus := hmatches.status
    refine .inr ⟨?_, l', hl', ?_⟩
    · rcases hm.status with ⟨-, h⟩ | ⟨-, h⟩ | ⟨h, -⟩
      · exact .inl h
      · exact .inr h
      · simp [Loan.Shows, Loan.defaulted, h] at hstatus
    · simpa [Loan.Shows, LoanRecord.defaulted] using hdefaulted

end Tied

/-! ## All events -/

/-- The projection agrees with the events after every one of them exactly when all are traced. -/
theorem projection_agrees_iff (js : Texts) {h s} (hr : Run (Projecting.Step js) .start h s) :
    Always Projected h s ↔ Throughout (fun _ s => Traced s.ledger) h := by
  refine Run.always_iff_of_inv (I := fun _ s => Tied s.projector s.ledger) Tied.empty (fun ht => ht.agrees) ?_ ?_ hr
  · intro h s l s' _ ht hst hok
    cases hst with
    | event hw hf => exact ht.applied hw hf hok
  · intro h s l s' _ ht hst ha
    cases hst with
    | event hw hf =>
      cases l with
      | request id borrower amount => exact ht.request_traced hw ha
      | repay borrower payment => exact ht.repay_traced hw ha
      | slash borrower => exact ht.slash_traced hw ha

/-! ## One loan, repaid -/

def sampleTexts : Texts := ⟨fun _ => 0, fun _ => 0⟩

def requestBytes (id amount : Nat) : List UInt8 :=
  bigEndian 8 id ++ bigEndian 8 0 ++ List.replicate 32 7 ++ bigEndian 16 amount

def repayBytes (payment : Nat) : List UInt8 := List.replicate 32 7 ++ bigEndian 16 payment

def loanEvent (action : String) (value : Option Indexer.Json) : IndexedEvent := ⟨"", "loan", action, value.getD []⟩

def sampleRequest (id : Nat) : LoanEvent :=
  .request (u64FromBytes (requestBytes id 1000) 0) (decodeAddress (((requestBytes id 1000).take 48).drop 16))
    (i128FromHex (requestBytes id 1000))

def sampleRepay : LoanEvent := .repay (decodeAddress ((repayBytes 1000).take 32)) (i128FromHex (repayBytes 1000))

def sampleRequested (id : Nat) : Projecting where
  projector := (LoanProjector.applyEvent sampleTexts OrderedMap.empty
    (loanEvent "request" (simplifyLoanRequest (requestBytes id 1000)))).1
  ledger := LoanLedger.empty.apply (sampleRequest id)

def sampleRepaid (id : Nat) : Projecting where
  projector := ((sampleRequested id).projector.applyEvent sampleTexts
    (loanEvent "repay" (simplifyLoanPayment (repayBytes 1000)))).1
  ledger := (sampleRequested id).ledger.apply sampleRepay

def sampleHistory (id : Nat) : List (Projecting × LoanEvent) :=
  [(sampleRequested id, sampleRepay), (.start, sampleRequest id)]

theorem written_request {raw : List UInt8} (h : (simplifyLoanRequest raw).isSome = true) :
    Written (loanEvent "request" (simplifyLoanRequest raw))
      (.request (u64FromBytes raw 0) (decodeAddress ((raw.take 48).drop 16)) (i128FromHex raw)) := by
  obtain ⟨v, hv⟩ := Option.isSome_iff_exists.1 h
  rw [hv]
  exact .request rfl rfl hv

theorem written_repay {raw : List UInt8} (h : (simplifyLoanPayment raw).isSome = true) :
    Written (loanEvent "repay" (simplifyLoanPayment raw)) (.repay (decodeAddress (raw.take 32)) (i128FromHex raw)) := by
  obtain ⟨v, hv⟩ := Option.isSome_iff_exists.1 h
  rw [hv]
  exact .repay rfl rfl hv

theorem sample_requested {id : Nat} (hrequest : (simplifyLoanRequest (requestBytes id 1000)).isSome = true) :
    Projecting.Step sampleTexts .start (sampleRequest id) (sampleRequested id) :=
  .event (written_request hrequest) trivial

theorem sample_repaid {id : Nat}
    (hfollows : ((sampleRequested id).ledger.current (decodeAddress ((repayBytes 1000).take 32))).isSome = true) :
    Projecting.Step sampleTexts (sampleRequested id) sampleRepay (sampleRepaid id) :=
  .event (written_repay (by decide +kernel)) hfollows

theorem projection_agrees_repaid : Always Projected (sampleHistory 1004903648) (sampleRepaid 1004903648) ∧
    (sampleRepaid 1004903648).projector.getAll.map (·.status) = [.repaid] := by
  refine ⟨?_, by decide +kernel⟩
  refine (projection_agrees_iff sampleTexts
    ((Run.nil.snoc (sample_requested (by decide +kernel))).snoc (sample_repaid (by decide +kernel)))).2 ?_
  refine ⟨⟨trivial, ?_⟩, ?_⟩
  · refine ⟨by decide +kernel, by decide +kernel, by decide +kernel, by decide +kernel, ?_⟩
    intro id' l hl
    cases hl
  · intro id l hcurrent hl
    have hid : (sampleRequested 1004903648).ledger.current (decodeAddress ((repayBytes 1000).take 32)) =
        some 1004903648 := by decide +kernel
    rw [hid] at hcurrent
    cases hcurrent
    have hloan : ((sampleRequested 1004903648).ledger.loans 1004903648).map Loan.repaid = some 0 := by decide +kernel
    rw [hl] at hloan
    rw [Option.some.inj hloan]
    exact .inl ⟨by decide +kernel, by decide +kernel⟩

/-- The same with loan id 1: the payment is another record. -/
theorem projection_differs :
    ¬ ∀ js h s, Run (Projecting.Step js) .start h s → Agrees s.projector s.ledger := by
  intro hclaim
  have ha := hclaim _ _ _ ((Run.nil.snoc (@sample_requested 1 (by decide +kernel))).snoc
    (sample_repaid (by decide +kernel)))
  obtain ⟨id, hid, l, hl⟩ := (ha.ids 1004903648).1 (by decide +kernel)
  obtain rfl : 1004903648 = id := by omega
  have hnone : (sampleRepaid 1).ledger.loans 1004903648 = none := by decide +kernel
  rw [hnone] at hl
  cases hl

end QuorumCredit.Server
