import Mathlib.Algebra.Order.Ring.Int
import Mathlib.Tactic.Common
/-!
# The indexer's events

`rpc.rs` and the decoder of `indexer.rs`: an event as the service returns it, the
row it is stored as, and the decoding of its topics and its value. JSON text is
the object it denotes. A decoder that panics has no result: a slice past the end
of the value, or a number that `json!` cannot hold, which is one outside `i64`
and `u64`.
-/

namespace QuorumCredit.Indexer

structure SorobanEvent where
  ledger : Nat
  ledgerClosedAt : String
  contractId : String
  topic : List String
  value : String
  txHash : String
  inSuccessfulContractCall : Option Bool
deriving DecidableEq, Repr

/-! ## JSON -/

inductive JsonField where
  | num (n : Int)
  | str (s : String)
  | strs (items : List String)
  | other
deriving DecidableEq, Repr

/-- A JSON object; any other value has no fields. -/
abbrev Json := List (String × JsonField)

def Json.get (v : Json) (key : String) : Option JsonField := v.lookup key

def JsonField.asInt : JsonField → Option Int
  | .num n => some n
  | _ => none

def JsonField.asStr : JsonField → Option String
  | .str s => some s
  | _ => none

def JsonField.Holds (n : Int) : Prop := -2 ^ 63 ≤ n ∧ n < 2 ^ 64

instance JsonField.Holds.decidable (n : Int) : Decidable (JsonField.Holds n) :=
  inferInstanceAs (Decidable (_ ∧ _))

def JsonField.ofInt (n : Int) : Option JsonField := if JsonField.Holds n then some (.num n) else none

/-- An event as it is stored. -/
structure Event where
  ledger : Nat
  ledgerClosedAt : String
  txHash : String
  contractId : String
  category : String
  action : String
  valueJson : Json
  rawTopics : Option (List String)
  rawValue : Option String
deriving DecidableEq, Repr

/-! ## Bytes -/

def base64Digit (c : Char) : Option Nat :=
  if 'A' ≤ c ∧ c ≤ 'Z' then some (c.toNat - 65)
  else if 'a' ≤ c ∧ c ≤ 'z' then some (c.toNat - 71)
  else if '0' ≤ c ∧ c ≤ '9' then some (c.toNat + 4)
  else if c = '+' then some 62
  else if c = '/' then some 63
  else none

/-- The standard engine: canonical padding, and no bits left over. -/
def base64Decode : List Char → Option (List UInt8)
  | [] => some []
  | [a, b, '=', '='] => do
    let x ← base64Digit a
    let y ← base64Digit b
    if y % 16 = 0 then some [UInt8.ofNat (x * 4 + y / 16)] else none
  | [a, b, c, '='] => do
    let x ← base64Digit a
    let y ← base64Digit b
    let z ← base64Digit c
    if z % 4 = 0 then some [UInt8.ofNat (x * 4 + y / 16), UInt8.ofNat (y % 16 * 16 + z / 4)] else none
  | a :: b :: c :: d :: rest => do
    let x ← base64Digit a
    let y ← base64Digit b
    let z ← base64Digit c
    let w ← base64Digit d
    let bytes ← base64Decode rest
    some (UInt8.ofNat (x * 4 + y / 16) :: UInt8.ofNat (y % 16 * 16 + z / 4) :: UInt8.ofNat (z % 4 * 64 + w) :: bytes)
  | _ => none

def hexDigit (n : Nat) : Char := if n < 10 then Char.ofNat (48 + n) else Char.ofNat (87 + n)

def hexEncode (bytes : List UInt8) : String :=
  String.ofList (bytes.flatMap fun b => [hexDigit (b.toNat / 16), hexDigit (b.toNat % 16)])

def bigEndian (bytes : List UInt8) : Nat := bytes.foldl (fun n b => n * 256 + b.toNat) 0

/-- The slice from `lo` to `hi`, which panics if it is none. -/
def slice (bytes : List UInt8) (lo hi : Nat) : Option (List UInt8) :=
  if lo ≤ hi ∧ hi ≤ bytes.length then some ((bytes.take hi).drop lo) else none

/-! ## Decoding -/

def decodeAddress (bytes : List UInt8) : String := hexEncode bytes

def u64FromBytes (bytes : List UInt8) (offset : Nat) : Nat :=
  if bytes.length < offset + 8 then 0 else bigEndian ((bytes.drop offset).take 8)

def maxVouchers : Nat := 16

def decodeVouchersFrom (bytes : List UInt8) : (pos left : Nat) → List String
  | _, 0 => []
  | pos, left + 1 =>
    if pos + 32 ≤ bytes.length then hexEncode ((bytes.drop pos).take 32) :: decodeVouchersFrom bytes (pos + 32) left
    else []

def decodeVouchers (bytes : List UInt8) (offset : Nat) : List String := decodeVouchersFrom bytes offset maxVouchers

def i128FromBytes (bytes : List UInt8) : Int :=
  if bigEndian bytes < 2 ^ 127 then bigEndian bytes else bigEndian bytes - 2 ^ 128

/-- The last 32 hex digits are the last 16 bytes, and the text has at least 16 digits from 8 bytes on. -/
def i128FromHex (raw : List UInt8) : Int :=
  if 16 ≤ 2 * raw.length then i128FromBytes (raw.drop (raw.length - 16)) else 0

def simplifyVouch (raw : List UInt8) : Option Json := do
  let voucher ← slice raw 0 (min 32 raw.length)
  let borrower ← slice raw 32 (min 64 raw.length)
  let stake ← JsonField.ofInt (i128FromHex raw)
  some [("voucher", .str (decodeAddress voucher)), ("borrower", .str (decodeAddress borrower)),
    ("stake_stroops", stake), ("token", .str "C")]

def simplifyLoanRequest (raw : List UInt8) : Option Json := do
  let loanId := u64FromBytes raw 0
  let deadline := u64FromBytes raw 8
  let borrower ← slice raw 16 (min 48 raw.length)
  let amount ← JsonField.ofInt (i128FromHex raw)
  let vouchers := decodeVouchers raw 48
  some [("loan_id", .num loanId), ("borrower", .str (decodeAddress borrower)), ("amount_stroops", amount),
    ("deadline", .num deadline), ("threshold_stroops", .num 0), ("loan_purpose", .str "decoded"),
    ("token", .str "C"), ("vouchers", .strs vouchers)]

def simplifyLoanPayment (raw : List UInt8) : Option Json := do
  let borrower ← slice raw 0 (min 32 raw.length)
  let payment ← JsonField.ofInt (i128FromHex raw)
  some [("borrower", .str (decodeAddress borrower)), ("payment_stroops", payment), ("total_slashed_stroops", payment)]

def simplifyValue (valueB64 category action : String) : Option Json :=
  match base64Decode valueB64.toList with
  | none => some [("raw", .str valueB64)]
  | some raw =>
    if category = "vouch" ∧ action ∈ ["create", "increase", "decrease", "withdraw"] then simplifyVouch raw
    else if category = "loan" ∧ action = "request" then simplifyLoanRequest raw
    else if category = "loan" ∧ action ∈ ["repay", "slash"] then simplifyLoanPayment raw
    else some [("raw_hex", .str (hexEncode raw)), ("raw_b64", .str valueB64)]

def decodeCategory : String → String
  | "AAAADwAAAAV2b3VjaA==" => "vouch"
  | "AAAADwAAAAVsb2Fu" => "loan"
  | "AAAADwAAAAVhZG1pbg==" => "admin"
  | "AAAADwAAAAhjb250cmFjdA==" => "contract"
  | topic0 => topic0

def decodeAction : String → String
  | "AAAADwAAAAZpbml0" => "init"
  | "AAAADwAAAAZjcmVhdGU=" => "create"
  | "AAAADwAAAAhpbmNyZWFzZQ==" => "increase"
  | "AAAADwAAAAhkZWNyZWFzZQ==" => "decrease"
  | "AAAADwAAAAh3aXRoZHJhdw==" => "withdraw"
  | "AAAADwAAAAZyZXF1ZXN0" => "request"
  | "AAAADwAAAAVyZXBheQ==" => "repay"
  | "AAAADwAAAAVzbGFzaA==" => "slash"
  | "AAAADwAAAAZjb25maWc=" => "config"
  | "AAAADwAAAAVwYXVzZQ==" => "pause"
  | "AAAADwAAAAd1bnBhdXNl" => "unpause"
  | topic1 => topic1

namespace SorobanEvent

variable (event : SorobanEvent)

def category : String := decodeCategory (event.topic[0]?.getD "")

def action : String := decodeAction (event.topic[1]?.getD "")

end SorobanEvent

def decodeEvent (event : SorobanEvent) : Option (String × String × Json) := do
  let valueJson ← simplifyValue event.value event.category event.action
  some (event.category, event.action, valueJson)

/-- The row `process_event` stores. -/
def SorobanEvent.record (event : SorobanEvent) : Option Event := do
  let (category, action, valueJson) ← decodeEvent event
  some { ledger := event.ledger, ledgerClosedAt := event.ledgerClosedAt, txHash := event.txHash
         contractId := event.contractId, category, action, valueJson, rawTopics := some event.topic
         rawValue := some event.value }

/-! ## What can be decoded -/

/-- The values the decoder does not panic on: a vouch has the bytes of its voucher and a
request those before its borrower, and the amount in the last 16 bytes fits a JSON number. -/
def SorobanEvent.Readable (event : SorobanEvent) : Prop :=
  ∀ raw ∈ base64Decode event.value.toList,
    (event.category = "vouch" ∧ event.action ∈ ["create", "increase", "decrease", "withdraw"] →
      32 ≤ raw.length ∧ JsonField.Holds (i128FromHex raw)) ∧
    (event.category = "loan" ∧ event.action = "request" → 16 ≤ raw.length ∧ JsonField.Holds (i128FromHex raw)) ∧
    (event.category = "loan" ∧ event.action ∈ ["repay", "slash"] → JsonField.Holds (i128FromHex raw))

theorem slice_isSome {bytes : List UInt8} {lo hi : Nat} :
    (slice bytes lo (min hi bytes.length)).isSome = true ↔ lo ≤ min hi bytes.length := by
  unfold slice
  split
  case isTrue h => exact iff_of_true rfl h.1
  case isFalse h => exact iff_of_false (by simp) fun hle => h ⟨hle, Nat.min_le_right hi bytes.length⟩

theorem ofInt_isSome {n : Int} : (JsonField.ofInt n).isSome = true ↔ JsonField.Holds n := by
  unfold JsonField.ofInt
  split
  case isTrue h => exact iff_of_true rfl h
  case isFalse h => exact iff_of_false (by simp) h

/-- One part after the other: it goes through if each does. -/
theorem isSome_bind {α β : Type} (o : Option α) {f : α → Option β} {p : Prop} (hf : ∀ a, (f a).isSome = true ↔ p) :
    (o >>= f).isSome = true ↔ o.isSome = true ∧ p := by
  cases o with
  | none => simp
  | some a => simpa using hf a

theorem simplifyVouch_isSome (raw : List UInt8) :
    (simplifyVouch raw).isSome = true ↔ 32 ≤ raw.length ∧ JsonField.Holds (i128FromHex raw) := by
  unfold simplifyVouch
  rw [isSome_bind _ fun _ => isSome_bind _ fun _ => isSome_bind _ fun _ => iff_of_true rfl trivial, slice_isSome,
    slice_isSome, ofInt_isSome]
  simp only [and_true, Nat.zero_le, true_and, Nat.le_min]
  refine and_congr_left fun _ => ⟨fun h => h.2, fun h => ⟨by decide, h⟩⟩

theorem simplifyLoanRequest_isSome (raw : List UInt8) :
    (simplifyLoanRequest raw).isSome = true ↔ 16 ≤ raw.length ∧ JsonField.Holds (i128FromHex raw) := by
  unfold simplifyLoanRequest
  rw [isSome_bind _ fun _ => isSome_bind _ fun _ => iff_of_true rfl trivial, slice_isSome, ofInt_isSome]
  simp only [and_true, Nat.le_min]
  exact and_congr_left fun _ => ⟨fun h => h.2, fun h => ⟨by decide, h⟩⟩

theorem simplifyLoanPayment_isSome (raw : List UInt8) :
    (simplifyLoanPayment raw).isSome = true ↔ JsonField.Holds (i128FromHex raw) := by
  unfold simplifyLoanPayment
  rw [isSome_bind _ fun _ => isSome_bind _ fun _ => iff_of_true rfl trivial, slice_isSome, ofInt_isSome]
  simp only [and_true, Nat.zero_le, true_and]

/-- The decoder panics on no other value. -/
theorem decodeEvent_isSome {event : SorobanEvent} : (decodeEvent event).isSome = true ↔ event.Readable := by
  unfold decodeEvent SorobanEvent.Readable
  rw [isSome_bind _ fun _ => iff_of_true rfl trivial, and_iff_left trivial]
  unfold simplifyValue
  cases hraw : base64Decode event.value.toList with
  | none => simp
  | some raw =>
    simp only [Option.mem_def, Option.some.injEq, forall_eq']
    split
    case isTrue hvouch =>
      rw [simplifyVouch_isSome]
      simp [hvouch.1, hvouch.2]
    case isFalse hvouch =>
      rw [and_iff_right fun h => absurd h hvouch]
      split
      case isTrue hrequest =>
        rw [simplifyLoanRequest_isSome]
        simp [hrequest.1, hrequest.2]
      case isFalse hrequest =>
        rw [and_iff_right fun h => absurd h hrequest]
        split
        case isTrue hpayment =>
          rw [simplifyLoanPayment_isSome]
          exact ⟨fun h _ => h, fun h => h hpayment⟩
        case isFalse hpayment => exact iff_of_true rfl fun h => absurd h hpayment

theorem record_isSome {event : SorobanEvent} : event.record.isSome = true ↔ event.Readable := by
  unfold SorobanEvent.record
  rw [isSome_bind _ fun _ => iff_of_true rfl trivial, and_iff_left trivial, decodeEvent_isSome]

end QuorumCredit.Indexer
