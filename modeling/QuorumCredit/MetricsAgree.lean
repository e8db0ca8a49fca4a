import QuorumCredit.IndexerMetrics
import QuorumCredit.Host.Totals
/-!
# Rebuilt and incremental metrics

Recording the events one by one and rebuilding from all of them give the same
values as long as no gauge would fall below zero, all volume is in the token that
is most common among the loan events and nothing is slashed under another label.
A rebuild adds to the counters, so it gives fresh values only where no event was
counted before.
-/

open Host Function

namespace QuorumCredit.Indexer

/-- The metrics derived from the events agree. -/
structure SameValues (m m' : IndexerMetrics) : Prop where
  eventsTotal : m.eventsTotal = m'.eventsTotal
  loanCountTotal : m.loanCountTotal = m'.loanCountTotal
  activeLoans : m.activeLoans = m'.activeLoans
  slashEventsTotal : m.slashEventsTotal = m'.slashEventsTotal
  slashAmountTotal : m.slashAmountTotal = m'.slashAmountTotal
  loanVolumeTotal : m.loanVolumeTotal = m'.loanVolumeTotal
  vouchCount : m.vouchCount = m'.vouchCount
  activeVouches : m.attestors.activeVouches = m'.attestors.activeVouches
  activeStakeStroops : m.attestors.activeStakeStroops = m'.attestors.activeStakeStroops
  lastVouchLedger : m.attestors.lastVouchLedger = m'.attestors.lastVouchLedger
  vouchEventsTotal : m.attestors.vouchEventsTotal = m'.attestors.vouchEventsTotal
  ledgerHeight : m.ledgerHeight = m'.ledgerHeight

/-! ## What one event adds -/

namespace Event

variable (event : Event)

def counts (category action : String) : Int := if event.category = category ∧ event.action = action then 1 else 0

def token : String := (event.str "token").getD "unknown"

def requested : Int :=
  if event.category = "loan" ∧ event.action = "request" then (event.amount "amount_stroops").getD 0 else 0

def slashed : Int :=
  if event.category = "loan" ∧ event.action = "slash" then (event.amount "total_slashed_stroops").getD 0 else 0

end Event

section

variable {α : Type} [DecidableEq α]

theorem incBy_zero (f : α → Int) (a : α) : incBy f a 0 = f := by
  rw [incBy, add_zero, update_eq_self]

theorem incBy_apply (f : α → Int) (a : α) (n : Int) (x : α) : incBy f a n x = f x + if x = a then n else 0 := by
  unfold incBy
  by_cases hx : x = a
  · rw [hx, update_self, if_pos rfl]
  · rw [update_of_ne hx, if_neg hx, add_zero]

/-- The same amount under two labels, from nothing. -/
theorem incBy_eq_iff {a b : α} {n : Int} : incBy (fun _ => 0) a n = incBy (fun _ => 0) b n ↔ a = b ∨ n = 0 := by
  constructor
  · intro h
    have hat := congrFun h a
    rw [incBy_apply, incBy_apply, if_pos rfl, zero_add, zero_add] at hat
    by_cases hab : a = b
    · exact .inl hab
    · rw [if_neg hab] at hat
      exact .inr hat
  · rintro (rfl | rfl)
    · rfl
    · rw [incBy_zero, incBy_zero]

end

section

variable (parseStake : String → Option Int) (m : IndexerMetrics) (event : Event)

/-- What `recordEvent` adds, for every category and action. -/
theorem recordEvent_eq : m.recordEvent parseStake event =
    { m with
      ledgerHeight := event.ledger
      eventsTotal := incBy m.eventsTotal (event.category, event.action) 1
      loanVolumeTotal := incBy m.loanVolumeTotal event.token event.requested
      loanCountTotal := m.loanCountTotal + event.counts "loan" "request"
      activeLoans := m.activeLoans + (event.counts "loan" "request" - event.counts "loan" "repay")
      slashEventsTotal := m.slashEventsTotal + event.counts "loan" "slash"
      slashAmountTotal := incBy m.slashAmountTotal "unknown" event.slashed
      vouchCount := m.vouchCount + (event.counts "vouch" "create" - event.counts "vouch" "withdraw")
      attestors := m.attestors.recordAttestorEvent parseStake event } := by
  unfold IndexerMetrics.recordEvent Event.counts Event.requested Event.slashed Event.token
  cases event.amount "amount_stroops" <;> cases event.amount "total_slashed_stroops" <;> split <;>
    simp_all [incBy_zero, ite_and, sub_eq_add_neg]

theorem recordEvent_loanCountTotal :
    (m.recordEvent parseStake event).loanCountTotal = m.loanCountTotal + event.counts "loan" "request" := by
  rw [recordEvent_eq]

theorem recordEvent_activeLoans : (m.recordEvent parseStake event).activeLoans =
    m.activeLoans + (event.counts "loan" "request" - event.counts "loan" "repay") := by
  rw [recordEvent_eq]

theorem recordEvent_vouchCount : (m.recordEvent parseStake event).vouchCount =
    m.vouchCount + (event.counts "vouch" "create" - event.counts "vouch" "withdraw") := by
  rw [recordEvent_eq]

theorem recordEvent_slashEventsTotal :
    (m.recordEvent parseStake event).slashEventsTotal = m.slashEventsTotal + event.counts "loan" "slash" := by
  rw [recordEvent_eq]

theorem recordEvent_slashAmountTotal : (m.recordEvent parseStake event).slashAmountTotal =
    incBy m.slashAmountTotal "unknown" event.slashed := by
  rw [recordEvent_eq]

theorem recordEvent_loanVolumeTotal : (m.recordEvent parseStake event).loanVolumeTotal =
    incBy m.loanVolumeTotal event.token event.requested := by
  rw [recordEvent_eq]

theorem recordEvent_eventsTotal : (m.recordEvent parseStake event).eventsTotal =
    incBy m.eventsTotal (event.category, event.action) 1 := by
  rw [recordEvent_eq]

theorem recordEvent_attestors : (m.recordEvent parseStake event).attestors =
    m.attestors.recordAttestorEvent parseStake event := by
  rw [recordEvent_eq]

theorem recordEvent_ledgerHeight : (m.recordEvent parseStake event).ledgerHeight = event.ledger := by
  rw [recordEvent_eq]

end

section

variable (t : RebuildTotals) (event : Event)

/-- What a rebuild's `add` adds, for every category and action. -/
theorem add_eq : t.add event =
    { maxLedger := max t.maxLedger event.ledger
      loanCount := t.loanCount + event.counts "loan" "request"
      activeLoans := t.activeLoans + (event.counts "loan" "request" - event.counts "loan" "repay")
      vouchCount := t.vouchCount + (event.counts "vouch" "create" - event.counts "vouch" "withdraw")
      slashCount := t.slashCount + event.counts "loan" "slash"
      loanVolume := t.loanVolume + event.requested
      slashAmount := t.slashAmount + event.slashed } := by
  unfold RebuildTotals.add Event.counts Event.requested Event.slashed
  cases event.amount "amount_stroops" <;> cases event.amount "total_slashed_stroops" <;> split <;>
    simp_all [ite_and, sub_eq_add_neg]

theorem add_maxLedger : (t.add event).maxLedger = max t.maxLedger event.ledger := by rw [add_eq]

theorem add_loanCount : (t.add event).loanCount = t.loanCount + event.counts "loan" "request" := by rw [add_eq]

theorem add_activeLoans : (t.add event).activeLoans =
    t.activeLoans + (event.counts "loan" "request" - event.counts "loan" "repay") := by
  rw [add_eq]

theorem add_vouchCount : (t.add event).vouchCount =
    t.vouchCount + (event.counts "vouch" "create" - event.counts "vouch" "withdraw") := by
  rw [add_eq]

theorem add_slashCount : (t.add event).slashCount = t.slashCount + event.counts "loan" "slash" := by rw [add_eq]

theorem add_loanVolume : (t.add event).loanVolume = t.loanVolume + event.requested := by rw [add_eq]

theorem add_slashAmount : (t.add event).slashAmount = t.slashAmount + event.slashed := by rw [add_eq]

end

/-! ## What all events add -/

/-- Over all events. -/
def total (gain : Event → Int) (events : List Event) : Int := (events.map gain).sum

/-- The requested amounts that carry the token. -/
def volumeOf (events : List Event) (token : String) : Int :=
  total (fun e => if token = e.token then e.requested else 0) events

section

variable {events : List Event}

/-- What every event adds to is, after all of them, larger by what they add together. -/
theorem foldl_gain {β : Type} {step : β → Event → β} (f : β → Int) {gain : Event → Int}
    (h : ∀ b e, f (step b e) = f b + gain e) (events : List Event) (b : β) :
    f (events.foldl step b) = f b + total gain events := by
  induction events generalizing b with
  | nil => exact (add_zero _).symm
  | cons e events ih =>
    rw [List.foldl_cons, ih, h, total, total, List.map_cons, List.sum_cons, add_assoc]

theorem totals_volumeOf (events : List Event) : Totals (volumeOf events) (total Event.requested events) := by
  induction events with
  | nil => exact Totals.zero
  | cons e events ih =>
    refine (ih.update e.token (volumeOf events e.token + e.requested)).congr ?_ ?_
    · funext token
      by_cases ht : token = e.token
      · rw [ht, update_self, volumeOf, total, List.map_cons, List.sum_cons, if_pos rfl, add_comm]
        rfl
      · rw [update_of_ne ht, volumeOf, total, List.map_cons, List.sum_cons, if_neg ht, zero_add]
        rfl
    · rw [total, List.map_cons, List.sum_cons]
      change e.requested + total Event.requested events = _
      omega

/-- All volume is under one label if the others have none. -/
theorem volumeOf_eq_iff {token : String} :
    volumeOf events = incBy (fun _ => 0) token (total Event.requested events) ↔
      ∀ other, other ≠ token → volumeOf events other = 0 := by
  constructor
  · intro h other hne
    rw [h, incBy_apply, if_neg hne, add_zero]
  · intro h
    have hsum := (totals_volumeOf events).update token 0
    have hzero : update (volumeOf events) token 0 = fun _ => 0 := by
      funext other
      by_cases ho : other = token
      · rw [ho, update_self]
      · rw [update_of_ne ho, h other ho]
    rw [hzero] at hsum
    have hnone : total Event.requested events + 0 - volumeOf events token = 0 :=
      hsum.sum.trans finsum_zero
    funext other
    rw [incBy_apply]
    by_cases ho : other = token
    · rw [if_pos ho, ho]
      omega
    · rw [if_neg ho, h other ho, add_zero]

end

/-! ## Both ways -/

def recorded (parseStake : String → Option Int) (events : List Event) : IndexerMetrics :=
  events.foldl (IndexerMetrics.recordEvent parseStake) .new

def rebuilt (parseStake : String → Option Int) (order : RebuildOrder) (events : List Event) : IndexerMetrics :=
  IndexerMetrics.new.rebuildFromEvents parseStake order events

section

variable {parseStake : String → Option Int} {order : RebuildOrder} {events : List Event}

theorem foldl_eventCounts (label : String × String) :
    events.foldl (fun counts event => incBy counts (event.category, event.action) 1) (fun _ => 0) label =
      total (fun e => if label = (e.category, e.action) then 1 else 0) events :=
  (foldl_gain (fun counts : String × String → Int => counts label)
    (fun counts e => incBy_apply counts (e.category, e.action) 1 label) events fun _ => 0).trans (zero_add _)

theorem foldl_attestors (m : IndexerMetrics) :
    (events.foldl (IndexerMetrics.recordEvent parseStake) m).attestors =
      events.foldl (AttestorMetrics.recordAttestorEvent parseStake) m.attestors :=
  (List.foldl_hom IndexerMetrics.attestors fun m e => (recordEvent_attestors parseStake m e).symm).symm

/-- The last ledger is the greatest. -/
theorem foldl_ledger (hordered : events.Pairwise fun e e' => e.ledger ≤ e'.ledger) {m : IndexerMetrics}
    {t : RebuildTotals} (hm : m.ledgerHeight = t.maxLedger) (hle : ∀ e ∈ events, t.maxLedger ≤ e.ledger) :
    (events.foldl (IndexerMetrics.recordEvent parseStake) m).ledgerHeight =
      (events.foldl RebuildTotals.add t).maxLedger := by
  induction events generalizing m t with
  | nil => exact hm
  | cons e events ih =>
    obtain ⟨hlater, hordered⟩ := List.pairwise_cons.1 hordered
    have hmax : (t.add e).maxLedger = e.ledger := by
      rw [add_maxLedger]
      exact max_eq_right (hle e List.mem_cons_self)
    refine ih hordered ?_ fun e' he' => ?_
    · rw [recordEvent_ledgerHeight, hmax]
    · rw [hmax]
      exact_mod_cast hlater e' he'

theorem recorded_eventsTotal (label : String × String) : (recorded parseStake events).eventsTotal label =
    total (fun e => if label = (e.category, e.action) then 1 else 0) events :=
  (foldl_gain (fun m : IndexerMetrics => m.eventsTotal label)
    (fun m e => by rw [recordEvent_eventsTotal, incBy_apply]) events .new).trans (zero_add _)

theorem recorded_loanCountTotal : (recorded parseStake events).loanCountTotal =
    total (fun e => e.counts "loan" "request") events :=
  (foldl_gain _ (recordEvent_loanCountTotal parseStake) events .new).trans (zero_add _)

theorem recorded_activeLoans : (recorded parseStake events).activeLoans =
    total (fun e => e.counts "loan" "request" - e.counts "loan" "repay") events :=
  (foldl_gain _ (recordEvent_activeLoans parseStake) events .new).trans (zero_add _)

theorem recorded_vouchCount : (recorded parseStake events).vouchCount =
    total (fun e => e.counts "vouch" "create" - e.counts "vouch" "withdraw") events :=
  (foldl_gain _ (recordEvent_vouchCount parseStake) events .new).trans (zero_add _)

theorem recorded_slashEventsTotal : (recorded parseStake events).slashEventsTotal =
    total (fun e => e.counts "loan" "slash") events :=
  (foldl_gain _ (recordEvent_slashEventsTotal parseStake) events .new).trans (zero_add _)

theorem recorded_loanVolumeTotal : (recorded parseStake events).loanVolumeTotal = volumeOf events := by
  funext token
  exact (foldl_gain (fun m : IndexerMetrics => m.loanVolumeTotal token)
    (fun m e => by rw [recordEvent_loanVolumeTotal, incBy_apply]) events .new).trans (zero_add _)

theorem recorded_slashAmountTotal :
    (recorded parseStake events).slashAmountTotal = incBy (fun _ => 0) "unknown" (total Event.slashed events) := by
  funext token
  refine ((foldl_gain (fun m : IndexerMetrics => m.slashAmountTotal token)
    (fun m e => by rw [recordEvent_slashAmountTotal, incBy_apply]) events .new).trans (zero_add _)).trans ?_
  rw [incBy_apply, zero_add]
  by_cases ht : token = "unknown"
  · simp only [ht, if_true]
  · simp [ht, total]

theorem recorded_attestors : (recorded parseStake events).attestors =
    events.foldl (AttestorMetrics.recordAttestorEvent parseStake) .new :=
  foldl_attestors .new

/-- The values of a rebuild, of which only the counters depend on what was there. -/
theorem rebuild_values (m : IndexerMetrics) :
    m.rebuildFromEvents parseStake order events =
      { m with
        attestors := (recorded parseStake events).attestors
        eventsTotal := fun label => m.eventsTotal label + (recorded parseStake events).eventsTotal label
        ledgerHeight := (events.foldl RebuildTotals.add .zero).maxLedger
        loanCountTotal := m.loanCountTotal + (recorded parseStake events).loanCountTotal
        activeLoans := max (recorded parseStake events).activeLoans 0
        vouchCount := max (recorded parseStake events).vouchCount 0
        slashEventsTotal := m.slashEventsTotal + (recorded parseStake events).slashEventsTotal
        loanVolumeTotal := incBy m.loanVolumeTotal (mostCommonToken order.loanVolume events "loan")
          (total Event.requested events)
        slashAmountTotal := incBy m.slashAmountTotal (mostCommonToken order.slash events "loan")
          (total Event.slashed events) } := by
  simp only [IndexerMetrics.rebuildFromEvents, foldl_eventCounts, recorded_eventsTotal, recorded_loanCountTotal,
    recorded_activeLoans, recorded_vouchCount, recorded_slashEventsTotal, recorded_attestors,
    foldl_gain _ add_loanCount, foldl_gain _ add_activeLoans, foldl_gain _ add_vouchCount, foldl_gain _ add_slashCount,
    foldl_gain _ add_loanVolume, foldl_gain _ add_slashAmount, RebuildTotals.zero, zero_add]

end

/-! ## The most common token -/

/-- No token is named by more of the loan events; "unknown" if they name none. -/
def Leading (events : List Event) (token : String) : Prop :=
  (tokensOf events "loan" = [] ∧ token = "unknown") ∨ token ∈ tokensOf events "loan" ∧
    ∀ other, (tokensOf events "loan").count other ≤ (tokensOf events "loan").count token

theorem foldl_best (entries : List (String × Nat)) (best : String × Nat) :
    let found := entries.foldl (fun best e => if best.2 ≤ e.2 then e else best) best
    found ∈ best :: entries ∧ ∀ e ∈ best :: entries, e.2 ≤ found.2 := by
  induction entries generalizing best with
  | nil => simp
  | cons e entries ih =>
    obtain ⟨hmem, hmax⟩ := ih (if best.2 ≤ e.2 then e else best)
    rw [List.foldl_cons]
    refine ⟨?_, fun e' he' => ?_⟩
    · rcases List.mem_cons.1 hmem with h | h
      · rw [h]
        split <;> simp
      · simp [h]
    · have hbest := hmax _ List.mem_cons_self
      rcases List.mem_cons.1 he' with rfl | he'
      · refine le_trans ?_ hbest
        split <;> omega
      · rcases List.mem_cons.1 he' with rfl | he'
        · refine le_trans ?_ hbest
          split <;> omega
        · exact hmax e' (List.mem_cons_of_mem _ he')

theorem maxByCount_spec {entries : List (String × Nat)} (hne : entries ≠ []) :
    ∃ found ∈ entries, maxByCount entries = some found ∧ ∀ e ∈ entries, e.2 ≤ found.2 := by
  cases entries with
  | nil => exact absurd rfl hne
  | cons e entries =>
    obtain ⟨hmem, hmax⟩ := foldl_best entries e
    exact ⟨_, hmem, rfl, hmax⟩

theorem maxByCount_append {entries : List (String × Nat)} {e : String × Nat} (hmax : ∀ e' ∈ entries, e'.2 ≤ e.2) :
    maxByCount (entries ++ [e]) = some e := by
  cases entries with
  | nil => rfl
  | cons e' entries =>
    have hbest := hmax _ (foldl_best entries e').1
    simp [maxByCount, List.foldl_append, hbest]

section

variable {events : List Event}

def tokenCounts (events : List Event) : List (String × Nat) :=
  (tokensOf events "loan").dedup.map fun token => (token, (tokensOf events "loan").count token)

theorem mostCommonToken_eq (order : HashOrder) : mostCommonToken order events "loan" =
    ((maxByCount (order.iter (tokenCounts events))).map Prod.fst).getD "unknown" := rfl

theorem mem_tokenCounts {e : String × Nat} :
    e ∈ tokenCounts events ↔ e.1 ∈ tokensOf events "loan" ∧ e.2 = (tokensOf events "loan").count e.1 := by
  rw [tokenCounts, List.mem_map]
  constructor
  · rintro ⟨token, htoken, rfl⟩
    exact ⟨List.mem_dedup.1 htoken, rfl⟩
  · rintro ⟨htoken, hcount⟩
    exact ⟨e.1, List.mem_dedup.2 htoken, by rw [← hcount]⟩

theorem count_le_of_mem {n : Nat} (h : ∀ e ∈ tokenCounts events, e.2 ≤ n) (other : String) :
    (tokensOf events "loan").count other ≤ n := by
  by_cases ho : other ∈ tokensOf events "loan"
  · exact h (other, (tokensOf events "loan").count other) (mem_tokenCounts.2 ⟨ho, rfl⟩)
  · rw [List.count_eq_zero_of_not_mem ho]
    exact Nat.zero_le n

theorem mostCommonToken_leading (order : HashOrder) (events : List Event) :
    Leading events (mostCommonToken order events "loan") := by
  rw [mostCommonToken_eq]
  by_cases hnone : tokensOf events "loan" = []
  · have hempty : order.iter (tokenCounts events) = [] := by
      refine List.Perm.eq_nil ((order.perm _).trans ?_)
      rw [tokenCounts, hnone]
      exact .refl _
    rw [hempty]
    exact .inl ⟨hnone, rfl⟩
  · have hne : order.iter (tokenCounts events) ≠ [] := by
      intro hempty
      have hperm := order.perm (tokenCounts events)
      rw [hempty] at hperm
      apply hnone
      simpa [tokenCounts] using hperm.symm.eq_nil
    obtain ⟨found, hmem, hfound, hmax⟩ := maxByCount_spec hne
    have hperm := order.perm (tokenCounts events)
    obtain ⟨htoken, hcount⟩ := mem_tokenCounts.1 (hperm.mem_iff.1 hmem)
    rw [hfound]
    refine .inr ⟨htoken, count_le_of_mem fun e he => ?_⟩
    have hle := hmax e (hperm.mem_iff.2 he)
    rwa [hcount] at hle

/-- The order that comes to the entry last. -/
def HashOrder.last (e : String × Nat) : HashOrder where
  iter entries := if e ∈ entries then entries.erase e ++ [e] else entries
  perm entries := by
    split
    case isTrue he =>
      exact (List.perm_append_singleton e (entries.erase e)).trans (List.perm_cons_erase he).symm
    case isFalse => exact .refl _

/-- Among several most common tokens the hash map decides. -/
theorem exists_mostCommonToken {token : String} (hl : Leading events token) :
    ∃ order, mostCommonToken order events "loan" = token := by
  rcases hl with ⟨hnone, rfl⟩ | ⟨hmem, hmax⟩
  · refine ⟨⟨id, .refl⟩, ?_⟩
    rw [mostCommonToken_eq, tokenCounts, hnone]
    rfl
  · refine ⟨.last (token, (tokensOf events "loan").count token), ?_⟩
    have hentry : (token, (tokensOf events "loan").count token) ∈ tokenCounts events :=
      mem_tokenCounts.2 ⟨hmem, rfl⟩
    rw [mostCommonToken_eq]
    simp only [HashOrder.last, if_pos hentry]
    rw [maxByCount_append]
    · rfl
    · intro e he
      have hcount := (mem_tokenCounts.1 (List.mem_of_mem_erase he)).2
      rw [hcount]
      exact hmax e.1

end

/-! ## When they agree -/

theorem total_sub (f g : Event → Int) (events : List Event) :
    total (fun e => f e - g e) events = total f events - total g events := by
  induction events with
  | nil => rfl
  | cons e events ih =>
    simp only [total, List.map_cons, List.sum_cons] at ih ⊢
    omega

theorem total_append (f : Event → Int) (events later : List Event) :
    total f (events ++ later) = total f events + total f later := by
  rw [total, List.map_append, List.sum_append]
  rfl

theorem total_nonneg {f : Event → Int} (hf : ∀ e, 0 ≤ f e) (events : List Event) : 0 ≤ total f events := by
  refine List.sum_nonneg fun n hn => ?_
  obtain ⟨e, -, rfl⟩ := List.mem_map.1 hn
  exact hf e

/-- At least as many requests as repayments and as many vouches as withdrawals, no volume
but in the most common token, and no slashed amount unless that is "unknown". -/
structure Consistent (events : List Event) : Prop where
  loans : total (·.counts "loan" "repay") events ≤ total (·.counts "loan" "request") events
  vouches : total (·.counts "vouch" "withdraw") events ≤ total (·.counts "vouch" "create") events
  volume : ∀ token, Leading events token → ∀ other, other ≠ token → volumeOf events other = 0
  slashes : (∀ token, Leading events token → token = "unknown") ∨ total Event.slashed events = 0

/-- One token is most common, or there is nothing to label. -/
def OneLabel (events : List Event) : Prop :=
  (∀ token token', Leading events token → Leading events token' → token = token') ∨
    total Event.requested events = 0 ∧ total Event.slashed events = 0

section

variable {parseStake : String → Option Int} {order : RebuildOrder} {events : List Event}

theorem recorded_same_iff (hordered : events.Pairwise fun e e' => e.ledger ≤ e'.ledger) :
    SameValues (recorded parseStake events) (rebuilt parseStake order events) ↔
      total (·.counts "loan" "repay") events ≤ total (·.counts "loan" "request") events ∧
        total (·.counts "vouch" "withdraw") events ≤ total (·.counts "vouch" "create") events ∧
        (∀ other, other ≠ mostCommonToken order.loanVolume events "loan" → volumeOf events other = 0) ∧
        (mostCommonToken order.slash events "loan" = "unknown" ∨ total Event.slashed events = 0) := by
  have hledger : (recorded parseStake events).ledgerHeight = (events.foldl RebuildTotals.add .zero).maxLedger :=
    foldl_ledger hordered rfl fun e _ => Int.natCast_nonneg e.ledger
  -- recording lets the two gauges fall below zero, rebuilding cuts them there
  have hactive : (recorded parseStake events).activeLoans = max (recorded parseStake events).activeLoans 0 ↔
      total (·.counts "loan" "repay") events ≤ total (·.counts "loan" "request") events := by
    rw [recorded_activeLoans, total_sub]
    omega
  have hvouches : (recorded parseStake events).vouchCount = max (recorded parseStake events).vouchCount 0 ↔
      total (·.counts "vouch" "withdraw") events ≤ total (·.counts "vouch" "create") events := by
    rw [recorded_vouchCount, total_sub]
    omega
  rw [rebuilt, rebuild_values, ← hactive, ← hvouches, ← volumeOf_eq_iff, ← recorded_loanVolumeTotal, @eq_comm String _
    "unknown", ← incBy_eq_iff, ← recorded_slashAmountTotal]
  constructor
  · intro h
    exact ⟨h.activeLoans, h.vouchCount, h.loanVolumeTotal, h.slashAmountTotal⟩
  · rintro ⟨hactive, hvouches, hvolume, hslashes⟩
    exact {
      eventsTotal := funext fun label => (zero_add _).symm
      loanCountTotal := (zero_add _).symm
      activeLoans := hactive
      slashEventsTotal := (zero_add _).symm
      slashAmountTotal := hslashes
      loanVolumeTotal := hvolume
      vouchCount := hvouches
      activeVouches := rfl
      activeStakeStroops := rfl
      lastVouchLedger := rfl
      vouchEventsTotal := rfl
      ledgerHeight := hledger }

theorem recorded_same_all_iff (hordered : events.Pairwise fun e e' => e.ledger ≤ e'.ledger) :
    (∀ order, SameValues (recorded parseStake events) (rebuilt parseStake order events)) ↔ Consistent events := by
  constructor
  · intro h
    have hparts := fun order => (recorded_same_iff hordered).1 (h order)
    refine ⟨(hparts ⟨⟨id, .refl⟩, ⟨id, .refl⟩⟩).1, (hparts ⟨⟨id, .refl⟩, ⟨id, .refl⟩⟩).2.1, fun token hl => ?_, ?_⟩
    -- some order of the counts makes a leading token the chosen one
    · obtain ⟨order, rfl⟩ := exists_mostCommonToken hl
      exact (hparts ⟨order, order⟩).2.2.1
    · by_cases hzero : total Event.slashed events = 0
      · exact .inr hzero
      · refine .inl fun token hl => ?_
        obtain ⟨order, rfl⟩ := exists_mostCommonToken hl
        exact (hparts ⟨order, order⟩).2.2.2.resolve_right hzero
  · intro h order
    refine (recorded_same_iff hordered).2 ⟨h.loans, h.vouches, h.volume _ (mostCommonToken_leading _ _), ?_⟩
    exact h.slashes.imp_left fun hl => hl _ (mostCommonToken_leading _ _)

end

/-! ## Rebuilding again -/

inductive MetricsCall where
  | recordEvent (event : Event)
  | rebuildFromEvents (order : RebuildOrder) (events : List Event)

def MetricsCall.events : MetricsCall → List Event
  | .recordEvent event => [event]
  | .rebuildFromEvents _ events => events

def IndexerMetrics.call (parseStake : String → Option Int) (m : IndexerMetrics) : MetricsCall → IndexerMetrics
  | .recordEvent event => m.recordEvent parseStake event
  | .rebuildFromEvents order events => m.rebuildFromEvents parseStake order events

/-- The metrics after some calls. -/
def called (parseStake : String → Option Int) (calls : List MetricsCall) : IndexerMetrics :=
  calls.foldl (IndexerMetrics.call parseStake) .new

/-- The counters that a rebuild adds to. -/
structure SameCounters (m m' : IndexerMetrics) : Prop where
  eventsTotal : m.eventsTotal = m'.eventsTotal
  loanCountTotal : m.loanCountTotal = m'.loanCountTotal
  slashEventsTotal : m.slashEventsTotal = m'.slashEventsTotal
  slashAmountTotal : m.slashAmountTotal = m'.slashAmountTotal
  loanVolumeTotal : m.loanVolumeTotal = m'.loanVolumeTotal

section

variable {parseStake : String → Option Int} {events : List Event}

theorem call_eventsTotal (m : IndexerMetrics) (c : MetricsCall) (label : String × String) :
    (m.call parseStake c).eventsTotal label =
      m.eventsTotal label + total (fun e => if label = (e.category, e.action) then 1 else 0) c.events := by
  cases c with
  | recordEvent event =>
    simp only [IndexerMetrics.call, recordEvent_eventsTotal, incBy_apply, MetricsCall.events, total, List.map_cons,
      List.map_nil, List.sum_cons, List.sum_nil, add_zero]
  | rebuildFromEvents order events =>
    simp only [IndexerMetrics.call, rebuild_values, recorded_eventsTotal, MetricsCall.events]

theorem calls_eventsTotal (m : IndexerMetrics) (calls : List MetricsCall) (label : String × String) :
    (calls.foldl (IndexerMetrics.call parseStake) m).eventsTotal label = m.eventsTotal label +
      total (fun e => if label = (e.category, e.action) then 1 else 0) (calls.flatMap MetricsCall.events) := by
  induction calls generalizing m with
  | nil => exact (add_zero _).symm
  | cons c calls ih => rw [List.foldl_cons, ih, call_eventsTotal, List.flatMap_cons, total_append, add_assoc]

/-- A counter of events is zero for every label only if there were none. -/
theorem eq_nil_of_total {events : List Event}
    (h : ∀ label : String × String, total (fun e => if label = (e.category, e.action) then 1 else 0) events = 0) :
    events = [] := by
  cases events with
  | nil => rfl
  | cons e events =>
    have hcount := h (e.category, e.action)
    have hrest : 0 ≤ total (fun e' => if (e.category, e.action) = (e'.category, e'.action) then 1 else 0) events := by
      refine total_nonneg (fun e' => ?_) events
      split <;> decide
    simp only [total, List.map_cons, List.sum_cons, if_true] at hcount hrest
    omega

theorem SameCounters.call {m : IndexerMetrics} (h : SameCounters m .new) {c : MetricsCall} (hnone : c.events = []) :
    SameCounters (m.call parseStake c) .new := by
  cases c with
  | recordEvent event => cases hnone
  | rebuildFromEvents order events =>
    cases (hnone : events = [])
    simp only [IndexerMetrics.call, rebuild_values]
    refine ⟨?_, ?_, ?_, ?_, ?_⟩
    · rw [h.eventsTotal]
      rfl
    · rw [h.loanCountTotal]
      rfl
    · rw [h.slashEventsTotal]
      rfl
    · exact (incBy_zero _ _).trans h.slashAmountTotal
    · exact (incBy_zero _ _).trans h.loanVolumeTotal

theorem called_counters {calls : List MetricsCall} (hnone : ∀ c ∈ calls, c.events = []) {m : IndexerMetrics}
    (h : SameCounters m .new) : SameCounters (calls.foldl (IndexerMetrics.call parseStake) m) .new := by
  induction calls generalizing m with
  | nil => exact h
  | cons c calls ih =>
    rw [List.forall_mem_cons] at hnone
    exact ih hnone.2 (h.call hnone.1)

theorem SameCounters.rebuild {m : IndexerMetrics} (h : SameCounters m .new) {order order' : RebuildOrder} :
    SameValues (m.rebuildFromEvents parseStake order events) (rebuilt parseStake order' events) ↔
      (mostCommonToken order.loanVolume events "loan" = mostCommonToken order'.loanVolume events "loan" ∨
        total Event.requested events = 0) ∧
      (mostCommonToken order.slash events "loan" = mostCommonToken order'.slash events "loan" ∨
        total Event.slashed events = 0) := by
  rw [rebuilt, rebuild_values, rebuild_values, ← incBy_eq_iff, ← incBy_eq_iff]
  constructor
  · intro hsame
    have hvolume := hsame.loanVolumeTotal
    have hslash := hsame.slashAmountTotal
    simp only [h.loanVolumeTotal, h.slashAmountTotal] at hvolume hslash
    exact ⟨hvolume, hslash⟩
  · rintro ⟨hvolume, hslash⟩
    exact {
      eventsTotal := by rw [h.eventsTotal]
      loanCountTotal := by rw [h.loanCountTotal]
      activeLoans := rfl
      slashEventsTotal := by rw [h.slashEventsTotal]
      slashAmountTotal := by rw [h.slashAmountTotal]; exact hslash
      loanVolumeTotal := by rw [h.loanVolumeTotal]; exact hvolume
      vouchCount := rfl
      activeVouches := rfl
      activeStakeStroops := rfl
      lastVouchLedger := rfl
      vouchEventsTotal := rfl
      ledgerHeight := rfl }

theorem rebuild_same_all_iff (calls : List MetricsCall) (again : List Event) :
    (∀ order order', SameValues ((called parseStake calls).rebuildFromEvents parseStake order again)
      (rebuilt parseStake order' again)) ↔ (∀ c ∈ calls, c.events = []) ∧ OneLabel again := by
  constructor
  · intro h
    have hnone : ∀ c ∈ calls, c.events = [] := by
      refine List.flatMap_eq_nil_iff.1 (eq_nil_of_total fun label => ?_)
      have hcount := congrFun (h ⟨⟨id, .refl⟩, ⟨id, .refl⟩⟩ ⟨⟨id, .refl⟩, ⟨id, .refl⟩⟩).eventsTotal label
      simp only [rebuilt, rebuild_values, called, calls_eventsTotal, IndexerMetrics.new] at hcount
      omega
    have hlabels := fun order order' => (called_counters hnone ⟨rfl, rfl, rfl, rfl, rfl⟩).rebuild.1 (h order order')
    refine ⟨hnone, ?_⟩
    by_cases hone : ∀ token token', Leading again token → Leading again token' → token = token'
    · exact .inl hone
    · push Not at hone
      obtain ⟨token, token', hl, hl', hne⟩ := hone
      obtain ⟨order, rfl⟩ := exists_mostCommonToken hl
      obtain ⟨order', rfl⟩ := exists_mostCommonToken hl'
      obtain ⟨hvolume, hslash⟩ := hlabels ⟨order, order⟩ ⟨order', order'⟩
      exact .inr ⟨hvolume.resolve_left hne, hslash.resolve_left hne⟩
  · rintro ⟨hnone, hone⟩ order order'
    refine (called_counters hnone ⟨rfl, rfl, rfl, rfl, rfl⟩).rebuild.2 ?_
    rcases hone with hone | ⟨hvolume, hslash⟩
    · exact ⟨.inl (hone _ _ (mostCommonToken_leading _ _) (mostCommonToken_leading _ _)),
        .inl (hone _ _ (mostCommonToken_leading _ _) (mostCommonToken_leading _ _))⟩
    · exact ⟨.inr hvolume, .inr hslash⟩

/-- Recording and rebuilding agree exactly on consistent events, and rebuilding again gives
fresh values exactly where no event was counted before and the labels are settled. -/
theorem metrics_agree_iff (hordered : events.Pairwise fun e e' => e.ledger ≤ e'.ledger) (calls : List MetricsCall)
    (again : List Event) :
    ((∀ order, SameValues (recorded parseStake events) (rebuilt parseStake order events)) ↔ Consistent events) ∧
      ((∀ order order', SameValues ((called parseStake calls).rebuildFromEvents parseStake order again)
        (rebuilt parseStake order' again)) ↔ (∀ c ∈ calls, c.events = []) ∧ OneLabel again) :=
  ⟨recorded_same_all_iff hordered, rebuild_same_all_iff calls again⟩

end

/-! ## Two lists of events -/

def sampleEvent (ledger : Nat) (action : String) (fields : Json) : Event :=
  { ledger, ledgerClosedAt := "", txHash := "", contractId := "", category := "loan", action, valueJson := fields
    rawTopics := none, rawValue := none }

theorem id_perm (entries : List (String × Nat)) : (id entries).Perm entries := .refl _

def sampleOrder : RebuildOrder := ⟨⟨id, id_perm⟩, ⟨id, id_perm⟩⟩

/-- A loan is requested and repaid. -/
def repaidLoan : List Event :=
  [sampleEvent 5 "request" [("amount_stroops", .num 1000), ("token", .str "C")],
    sampleEvent 6 "repay" [("payment_stroops", .num 1000)]]

theorem metrics_agree_repaid : SameValues (recorded (fun _ => none) repaidLoan)
      (rebuilt (fun _ => none) sampleOrder repaidLoan) ∧
    SameValues ((called (fun _ => none) []).rebuildFromEvents (fun _ => none) sampleOrder repaidLoan)
      (rebuilt (fun _ => none) sampleOrder repaidLoan) := by
  have hagree := @metrics_agree_iff (fun _ => none) repaidLoan (by decide) [] repaidLoan
  have hone : ∀ token, Leading repaidLoan token → token = "C" := by
    rintro token (⟨hnone, -⟩ | ⟨hmem, -⟩)
    · exact absurd hnone (by decide)
    · have htokens : tokensOf repaidLoan "loan" = ["C"] := by decide
      rw [htokens] at hmem
      exact List.mem_singleton.1 hmem
  constructor
  · refine hagree.1.2 ⟨by decide, by decide, fun token hl other hne => ?_, .inr (by decide)⟩ sampleOrder
    rw [hone token hl] at hne
    have htokens : repaidLoan.map Event.token = ["C", "unknown"] := by decide
    have hamounts : repaidLoan.map Event.requested = [1000, 0] := by decide
    simp only [repaidLoan, List.map_cons, List.map_nil, List.cons.injEq, and_true] at htokens hamounts
    simp [volumeOf, total, repaidLoan, htokens, hamounts, hne]
  · have hsame : ∀ token token', Leading repaidLoan token → Leading repaidLoan token' → token = token' := by
      intro token token' hl hl'
      exact (hone token hl).trans (hone token' hl').symm
    exact hagree.2.2 ⟨List.forall_mem_nil _, .inl hsame⟩ sampleOrder sampleOrder

/-- Slashed 400 of it, which is counted under another label when rebuilt. -/
def slashedLoan : List Event :=
  [sampleEvent 5 "request" [("amount_stroops", .num 1000), ("token", .str "C")],
    sampleEvent 6 "slash" [("total_slashed_stroops", .num 400)]]

theorem metrics_differ :
    ¬ ∀ parseStake events, (events.Pairwise fun e e' : Event => e.ledger ≤ e'.ledger) → ∀ order calls again,
      SameValues (recorded parseStake events) (rebuilt parseStake order events) ∧
        SameValues ((called parseStake calls).rebuildFromEvents parseStake order again)
          (rebuilt parseStake order again) := by
  intro hclaim
  obtain ⟨hsame, -⟩ := hclaim (fun _ => none) slashedLoan (by decide) sampleOrder [] []
  have hslash := congrFun hsame.slashAmountTotal "unknown"
  exact absurd hslash (by decide +kernel)

end QuorumCredit.Indexer
