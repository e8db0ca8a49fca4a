import QuorumCredit.EventCodec
import Mathlib.Data.List.Dedup
import Mathlib.Algebra.Order.Ring.Int
/-!
# The indexer's metrics

`metrics.rs`: the counters and gauges derived from the stored events, written one
event at a time or rebuilt from all of them. A metric with a label is a function
of the label, zero where it was never written, and amounts are integers. How an
amount given as text parses is a parameter, and so is the order in which a hash
map is iterated. Counters add what they are given, as in the release build.
-/

open Function

namespace QuorumCredit.Indexer

/-- The order in which a hash map with these entries is iterated. -/
structure HashOrder where
  iter : List (String × Nat) → List (String × Nat)
  perm : ∀ entries, (iter entries).Perm entries

structure AttestorState where
  vouches : String × String → Option Int
  activeVouches : String → Int
  activeStake : String → Int

/-- The metrics by attestor. -/
structure AttestorMetrics where
  activeVouches : String → Int
  activeStakeStroops : String → Int
  lastVouchLedger : String → Int
  vouchEventsTotal : String × String → Int
  state : AttestorState

def AttestorMetrics.new : AttestorMetrics :=
  { activeVouches := fun _ => 0, activeStakeStroops := fun _ => 0, lastVouchLedger := fun _ => 0
    vouchEventsTotal := fun _ => 0
    state := { vouches := fun _ => none, activeVouches := fun _ => 0, activeStake := fun _ => 0 } }

structure IndexerMetrics where
  ledgerHeight : Int
  eventsTotal : String × String → Int
  loanVolumeTotal : String → Int
  loanCountTotal : Int
  activeLoans : Int
  slashEventsTotal : Int
  slashAmountTotal : String → Int
  vouchCount : Int
  gapsDetected : Int
  reorgsDetected : Int
  backfillEventsTotal : Int
  attestors : AttestorMetrics

def IndexerMetrics.new : IndexerMetrics :=
  { ledgerHeight := 0, eventsTotal := fun _ => 0, loanVolumeTotal := fun _ => 0, loanCountTotal := 0, activeLoans := 0
    slashEventsTotal := 0, slashAmountTotal := fun _ => 0, vouchCount := 0, gapsDetected := 0, reorgsDetected := 0
    backfillEventsTotal := 0, attestors := .new }

/-- A labelled counter, incremented. -/
def incBy {α : Type} [DecidableEq α] (counter : α → Int) (label : α) (n : Int) : α → Int :=
  update counter label (counter label + n)

/-! ## One event at a time -/

section

variable (parseStake : String → Option Int)

def Event.stake (event : Event) : Option Int :=
  (event.valueJson.get "stake_stroops").bind fun v => v.asInt <|> (v.asStr.bind parseStake)

def Event.str (event : Event) (key : String) : Option String := (event.valueJson.get key).bind JsonField.asStr

def Event.amount (event : Event) (key : String) : Option Int := (event.valueJson.get key).bind JsonField.asInt

/-- The metrics of one attestor after its stake in a borrower went from `previous` to `current`. -/
def AttestorMetrics.setVouch (m : AttestorMetrics) (event : Event) (attestor borrower : String)
    (previous current : Int) : AttestorMetrics :=
  let vouches := m.state.activeVouches attestor
  let activeVouches := if previous ≤ 0 ∧ 0 < current then vouches + 1
    else if 0 < previous ∧ current ≤ 0 then max (vouches - 1) 0
    else vouches
  let activeStake := max (m.state.activeStake attestor + current - previous) 0
  { activeVouches := update m.activeVouches attestor activeVouches
    activeStakeStroops := update m.activeStakeStroops attestor activeStake
    lastVouchLedger := update m.lastVouchLedger attestor event.ledger
    vouchEventsTotal := incBy m.vouchEventsTotal (attestor, event.action) 1
    state :=
      { vouches := update m.state.vouches (attestor, borrower) (if 0 < current then some current else none)
        activeVouches := update m.state.activeVouches attestor activeVouches
        activeStake := update m.state.activeStake attestor activeStake } }

def AttestorMetrics.recordAttestorEvent (m : AttestorMetrics) (event : Event) : AttestorMetrics :=
  if event.category ≠ "vouch" ∨ event.action ∉ ["create", "increase", "decrease", "withdraw"] then m
  else
    match event.str "voucher", event.str "borrower", event.stake parseStake with
    | some attestor, some borrower, some stake =>
      let eventStake := max stake 0
      let previous := (m.state.vouches (attestor, borrower)).getD 0
      let current := if event.action = "create" ∨ event.action = "increase" then previous + eventStake
        else if event.action = "decrease" then eventStake
        else 0
      m.setVouch event attestor borrower previous current
    | _, _, _ => m

def IndexerMetrics.recordEvent (m : IndexerMetrics) (event : Event) : IndexerMetrics :=
  let m := { m with
    ledgerHeight := event.ledger
    eventsTotal := incBy m.eventsTotal (event.category, event.action) 1
    attestors := m.attestors.recordAttestorEvent parseStake event }
  match event.category, event.action with
  | "loan", "request" =>
    { m with
      loanCountTotal := m.loanCountTotal + 1
      activeLoans := m.activeLoans + 1
      loanVolumeTotal :=
        match event.amount "amount_stroops" with
        | some amount => incBy m.loanVolumeTotal ((event.str "token").getD "unknown") amount
        | none => m.loanVolumeTotal }
  | "loan", "repay" => { m with activeLoans := m.activeLoans - 1 }
  | "loan", "slash" =>
    { m with
      slashEventsTotal := m.slashEventsTotal + 1
      slashAmountTotal :=
        match event.amount "total_slashed_stroops" with
        | some amount => incBy m.slashAmountTotal "unknown" amount
        | none => m.slashAmountTotal }
  | "vouch", "create" => { m with vouchCount := m.vouchCount + 1 }
  | "vouch", "withdraw" => { m with vouchCount := m.vouchCount - 1 }
  | _, _ => m

end

/-! ## From all events -/

/-- The entry with the greatest count, the last of those. -/
def maxByCount : List (String × Nat) → Option (String × Nat)
  | [] => none
  | e :: entries => some (entries.foldl (fun best e => if best.2 ≤ e.2 then e else best) e)

/-- The tokens that events of the category name, one for each event. -/
def tokensOf (events : List Event) (category : String) : List String :=
  events.filterMap fun event => if event.category = category then event.str "token" else none

def mostCommonToken (order : HashOrder) (events : List Event) (category : String) : String :=
  let tokens := tokensOf events category
  let counts := tokens.dedup.map fun token => (token, tokens.count token)
  ((maxByCount (order.iter counts)).map Prod.fst).getD "unknown"

structure RebuildTotals where
  maxLedger : Int
  loanCount : Int
  activeLoans : Int
  vouchCount : Int
  slashCount : Int
  loanVolume : Int
  slashAmount : Int

def RebuildTotals.zero : RebuildTotals :=
  { maxLedger := 0, loanCount := 0, activeLoans := 0, vouchCount := 0, slashCount := 0, loanVolume := 0
    slashAmount := 0 }

def RebuildTotals.add (t : RebuildTotals) (event : Event) : RebuildTotals :=
  let t := { t with maxLedger := max t.maxLedger event.ledger }
  match event.category, event.action with
  | "loan", "request" =>
    { t with
      loanCount := t.loanCount + 1
      activeLoans := t.activeLoans + 1
      loanVolume :=
        match event.amount "amount_stroops" with
        | some amount => t.loanVolume + amount
        | none => t.loanVolume }
  | "loan", "repay" => { t with activeLoans := t.activeLoans - 1 }
  | "vouch", "create" => { t with vouchCount := t.vouchCount + 1 }
  | "vouch", "withdraw" => { t with vouchCount := t.vouchCount - 1 }
  | "loan", "slash" =>
    { t with
      slashCount := t.slashCount + 1
      slashAmount :=
        match event.amount "total_slashed_stroops" with
        | some amount => t.slashAmount + amount
        | none => t.slashAmount }
  | _, _ => t

/-- The two hash maps of a rebuild, one for each label. -/
structure RebuildOrder where
  loanVolume : HashOrder
  slash : HashOrder

def IndexerMetrics.rebuildFromEvents (parseStake : String → Option Int) (order : RebuildOrder) (m : IndexerMetrics)
    (events : List Event) : IndexerMetrics :=
  let eventCounts := events.foldl (fun counts event => incBy counts (event.category, event.action) 1) fun _ => 0
  let totals := events.foldl RebuildTotals.add .zero
  let loanVolToken := mostCommonToken order.loanVolume events "loan"
  let slashToken := mostCommonToken order.slash events "loan"
  { m with
    attestors := events.foldl (AttestorMetrics.recordAttestorEvent parseStake) .new
    eventsTotal := fun label => m.eventsTotal label + eventCounts label
    ledgerHeight := totals.maxLedger
    loanCountTotal := m.loanCountTotal + totals.loanCount
    activeLoans := max totals.activeLoans 0
    vouchCount := max totals.vouchCount 0
    slashEventsTotal := m.slashEventsTotal + totals.slashCount
    loanVolumeTotal := incBy m.loanVolumeTotal loanVolToken totals.loanVolume
    slashAmountTotal := incBy m.slashAmountTotal slashToken totals.slashAmount }

end QuorumCredit.Indexer
