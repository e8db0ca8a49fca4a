import QuorumCredit.IndexedLog
import Mathlib.Data.List.Perm.Subperm
/-!
# The indexer across reorgs

The service answers in one page and every ledger has at most one event. A chain
that is replaced from some ledger on is indexed anew as long as the replaced
ledgers are ones the indexer has not seen, or the only one it has seen is the
latest with a stored hash, it has not been passed by `last_ledger`, and the next
poll still finds it to be the latest.
-/

open Function

namespace QuorumCredit.Indexer

open Host InPlace

/-! ## One page and one event for each ledger -/

def OneEach (c : Chain) : Prop := c.events.Pairwise fun e e' => e.ledger < e'.ledger

/-- The service, with all events in one page. -/
def Chain.wholeRpc (c : Chain) (hashGiven : Bool) : SorobanRpc :=
  { latestLedger := c.latestLedger hashGiven, getEvents := fun start _ cursor => c.eventsFrom start cursor }

/-- A page that is long enough for everything. -/
def wholePage (c : Chain) (limit : Nat) : Nat := limit + c.events.length

theorem Chain.wholeRpc_serves (c : Chain) (hashGiven : Bool) : Serves (c.wholeRpc hashGiven) c (wholePage c) where
  events start limit cursor := by
    refine (List.take_of_length_le ?_).symm
    refine le_trans (List.length_filter_le _ _) (le_trans ?_ (Nat.le_add_left _ _))
    cases cursor with
    | none => exact le_refl _
    | some cursor => exact length_afterLast_le _ _
  large limit := Nat.le_add_right _ _

/-- Events of distinct ledgers are no more than the ledgers. -/
theorem length_le_of_ledgers {l : List SorobanEvent} (hl : l.Pairwise fun e e' => e.ledger < e'.ledger) {x n : Nat}
    (hbound : ∀ e ∈ l, x < e.ledger ∧ e.ledger ≤ x + n) : l.length ≤ n := by
  have hnodup : (l.map SorobanEvent.ledger).Nodup :=
    List.pairwise_map.2 (hl.imp fun h => Nat.ne_of_lt h)
  have hsub : l.map SorobanEvent.ledger ⊆ List.range' (x + 1) n := by
    intro ledger hledger
    obtain ⟨e, he, rfl⟩ := List.mem_map.1 hledger
    obtain ⟨hlo, hhi⟩ := hbound e he
    rw [List.mem_range'_1]
    omega
  have hle := (hnodup.subperm hsub).length_le
  rwa [List.length_map, List.length_range'] at hle

section

variable {c c' : Chain} {config : IndexerConfig} {a L m r : Nat}

theorem OneEach.logFrom (hc : OneEach c) (a : Nat) : (c.logFrom a).Pairwise fun e e' => e.ledger < e'.ledger :=
  hc.filter _

/-- With one event for each ledger, only values and the end of `u32` are left to go wrong. -/
theorem OneEach.digestible (hc : OneEach c) (s : Store) (hread : ∀ e ∈ c.logFrom (L + 1), e.Readable)
    (hend : config.retentionWindowLedgers < c.latest - L → c.latest + config.backfillChunkSize < 2 ^ 32) :
    Digestible config (wholePage c) s c L where
  readable := hread
  distinct := (hc.logFrom _).imp fun hlt hkey => Nat.ne_of_lt hlt (congrArg Prod.fst hkey)
  pages _ := by
    constructor
    · intro j hj hdvd
      have hle := Nat.le_of_dvd (Nat.succ_pos j) hdvd
      have hlen : (c.logFrom (L + 1)).length ≤ c.events.length := List.length_filter_le _ _
      simp only [wholePage, pageLimit] at hle
      omega
    · refine le_trans (@length_le_of_ledgers (c.logFrom (L + 1)) (hc.logFrom _) L _ fun e he => ?_)
        (Nat.le_add_left _ _)
      obtain ⟨hmem, hle⟩ := List.mem_filter.1 he
      have hlo : L + 1 ≤ e.ledger := of_decide_eq_true hle
      have hhi := (c.closed e hmem).2
      omega
  chunks hgap := by
    refine ⟨fun j hj => ?_, hend hgap⟩
    refine @length_le_of_ledgers _ ((hc.logFrom _).filter _) (L + j * config.backfillChunkSize) _ fun e he => ?_
    simpa using (List.mem_filter.1 he).2

end

/-! ## Runs -/

/-- The chain from ledger `r` on is replaced by another one. -/
structure Chain.Replaced (r : Nat) (c c' : Chain) : Prop where
  seen : r ≤ c.latest
  latest : r ≤ c'.latest
  events : c'.events.filter (·.ledger < r) = c.events.filter (·.ledger < r)
  hashes : ∀ n, n < r → c'.hashes n = c.hashes n
  replaced : ∀ n, r ≤ n → n ≤ c.latest → c'.hashes n ≠ c.hashes n

inductive ReorgMove where
  | grow
  | replace (r : Nat)
  | call (op : IndexerOp) (hashGiven : Bool) (outcome : Except Halt Unit)

/-- The chain grows or is replaced from a ledger on, or a call returns or panics. -/
inductive Indexing.ReorgStep (config : IndexerConfig) : Indexing → ReorgMove → Indexing → Prop
  | grow {s c'} : s.chain.Grows c' → OneEach c' → ReorgStep config s .grow { s with chain := c' }
  | replace {s r c'} : s.chain.Replaced r c' → OneEach c' → ReorgStep config s (.replace r) { s with chain := c' }
  | call {s hashGiven parseStake order rounds op r t} :
    op.run rounds ⟨config, s.chain.wholeRpc hashGiven, parseStake, order⟩ s.indexer = (r, t) → r ≠ .error .endless →
      ReorgStep config s (.call op hashGiven r) { s with indexer := t, start := s.started config op t }

/-- Whenever a poll returns with `last_ledger` at the latest ledger, exactly the events of the chain are stored. -/
def Converged (h : List (Indexing × ReorgMove)) (s : Indexing) : Prop :=
  ∀ t hashGiven r h', h = (t, .call .pollEvents hashGiven r) :: h' → ∀ a, s.start = some a →
    s.indexer.store.lastLedger = some s.chain.latest →
      s.indexer.store.events.map some = (s.chain.logFrom a).map SorobanEvent.record

/-- The latest stored hash is that of the chain. -/
def Indexing.Noticed (s : Indexing) : Prop :=
  ∀ e ∈ s.indexer.store.getLatestSequenceWithHash, e.2 = s.chain.hashes e.1

/-- What is read after `last_ledger` can be decoded, and `u32` does not end. -/
def Indexing.Decodes (config : IndexerConfig) (s : Indexing) (L : Nat) : Prop :=
  (∀ e ∈ s.chain.logFrom (L + 1), e.Readable) ∧
    (config.retentionWindowLedgers < s.chain.latest - L → s.chain.latest + config.backfillChunkSize < 2 ^ 32)

/-- The replaced ledgers are beyond `last_ledger` and none of them was seen, or only the one with
the latest stored hash; and a poll that does not find the stored hash finds that ledger to be the
latest, with its hash. -/
def Handled (config : IndexerConfig) (s : Indexing) : ReorgMove → Prop
  | .grow => True
  | .replace r => s.Noticed ∧ s.indexer.store.lastLedger.getD 0 < r ∧
      (((∀ row ∈ s.indexer.store.events, row.ledger < r) ∧ ∀ e ∈ s.indexer.store.ledgerHashes, e.1 < r) ∨
        ∃ x, s.indexer.store.getLatestSequenceWithHash = some (r, x))
  | .call .pollEvents hashGiven _ => s.Decodes config (s.indexer.store.lastLedger.getD 0) ∧
      ∀ e ∈ s.indexer.store.getLatestSequenceWithHash, e.2 ≠ s.chain.hashes e.1 →
        s.chain.latest = e.1 ∧ hashGiven = true
  | .call .initializeIndexer _ _ => ∀ L ∈ s.indexer.store.lastLedger,
      config.retentionWindowLedgers < s.chain.latest - L → s.Decodes config L ∧ s.Noticed

/-- The chain is indexed as far as it was read, and all events below a stored hash are. -/
structure Indexing.Settled (s : Indexing) : Prop where
  sound : s.Sound
  fresh : s.start = none → s.indexer.store.ledgerHashes = []
  seen : ∀ a, s.start = some a → ∀ e ∈ s.indexer.store.ledgerHashes,
    a ≤ e.1 ∧ upTo (s.chain.logFrom a) (e.1 - 1) ≤ s.indexer.store.events.length

/-- The ledger of the latest stored hash was replaced, which the next poll will notice. -/
structure Indexing.Unnoticed (s : Indexing) (a L q : Nat) (x : String) : Prop where
  start : s.start = some a
  cursor : s.indexer.store.lastLedger = some L
  low : a ≤ L + 1
  lt : L < q
  le : q ≤ s.chain.latest
  highest : s.indexer.store.getLatestSequenceWithHash = some (q, x)
  differs : x ≠ s.chain.hashes q
  rows : (s.indexer.store.events.filter (·.ledger < q)).map some =
    ((s.chain.logFrom a).filter (·.ledger < q)).map SorobanEvent.record
  hashes : ∀ e ∈ s.indexer.store.ledgerHashes, e.1 < q → e.2 = s.chain.hashes e.1
  starts : ∀ e ∈ s.indexer.store.ledgerHashes, a ≤ e.1

section

variable {c c' : Chain} {s : Indexing} {config : IndexerConfig} {a L m n q r : Nat} {x : String}

theorem upTo_mono (log : List SorobanEvent) {n n' : Nat} (hn : n ≤ n') : upTo log n ≤ upTo log n' := by
  rw [upTo_add log hn]
  exact Nat.le_add_right _ _

theorem Holds.length {log : List SorobanEvent} {s : Store} (hs : Holds log m s) (hm : m ≤ log.length) :
    s.events.length = m := by
  have hlen := congrArg List.length hs
  rw [List.length_map, List.length_map, List.length_take] at hlen
  omega

/-- The events of stored rows, by ledger. -/
theorem Holds.ledgers {log : List SorobanEvent} {s : Store} (hs : Holds log m s)
    (hrows : ∀ row ∈ s.events, row.ledger < r) : ∀ e ∈ log.take m, e.ledger < r := by
  intro e he
  have hmem : e.record ∈ s.events.map some := by
    rw [hs]
    exact List.mem_map_of_mem he
  obtain ⟨row, hrow, hrecord⟩ := List.mem_map.1 hmem
  rw [← (record_eq_some hrecord.symm).2]
  exact hrows row hrow

theorem Chain.Grows.upTo (hg : c.Grows c') (hn : n ≤ c.latest) : upTo (c'.logFrom a) n = upTo (c.logFrom a) n := by
  obtain ⟨more, hmore, hnew⟩ := hg.logFrom a
  have hnone : more.filter (·.ledger ≤ n) = [] := by
    refine List.filter_eq_nil_iff.2 fun e he => ?_
    have hlt := (hnew e he).1
    simp only [decide_eq_true_eq]
    omega
  rw [Indexer.upTo, Indexer.upTo, hmore, List.filter_append, hnone, List.append_nil]

theorem Indexing.Settled.grow (hs : s.Settled) (hg : s.chain.Grows c') :
    Indexing.Settled { s with chain := c' } := by
  refine ⟨hs.sound.grow hg, hs.fresh, fun a ha e he => ?_⟩
  obtain ⟨hle, hseen⟩ := hs.seen a ha e he
  refine ⟨hle, ?_⟩
  rw [hg.upTo (le_trans (Nat.sub_le _ _) (hs.sound.hashes e he).1)]
  exact hseen

theorem Indexing.Unnoticed.grow (hu : s.Unnoticed a L q x) (hg : s.chain.Grows c') :
    Indexing.Unnoticed { s with chain := c' } a L q x := by
  obtain ⟨more, hmore, hnew⟩ := hg.logFrom a
  have hle := hu.le
  have hnone : more.filter (·.ledger < q) = [] := by
    refine List.filter_eq_nil_iff.2 fun e he => ?_
    have hlt := (hnew e he).1
    simp only [decide_eq_true_eq]
    omega
  refine ⟨hu.start, hu.cursor, hu.low, hu.lt, le_trans hu.le hg.latest, hu.highest, ?_, ?_, fun e he hlt => ?_,
    hu.starts⟩
  · rw [hg.hashes q hu.le]
    exact hu.differs
  · rw [hmore, List.filter_append, hnone, List.append_nil]
    exact hu.rows
  · rw [hg.hashes _ (by omega)]
    exact hu.hashes e he hlt

/-- Below the replaced ledgers the log is as it was. -/
theorem Chain.Replaced.logFrom (hr : c.Replaced r c') (a : Nat) :
    (c'.logFrom a).filter (·.ledger < r) = (c.logFrom a).filter (·.ledger < r) := by
  rw [Chain.logFrom, Chain.logFrom, List.filter_comm, hr.events, List.filter_comm]

theorem Chain.Replaced.upTo (hr : c.Replaced r c') (hn : n < r) : upTo (c'.logFrom a) n = upTo (c.logFrom a) n := by
  have hsub : ∀ l : List SorobanEvent, Indexer.upTo l n = Indexer.upTo (l.filter (·.ledger < r)) n := by
    intro l
    rw [Indexer.upTo, Indexer.upTo, List.filter_filter]
    refine congrArg List.length (List.filter_congr fun e _ => ?_)
    rw [← Bool.decide_and]
    exact decide_eq_decide.2 ⟨fun hle => ⟨hle, by omega⟩, fun h => h.1⟩
  rw [hsub, hr.logFrom, ← hsub]

/-- The log begins with what is below a ledger. -/
theorem take_length_below (c : Chain) (a : Nat) (hr : 0 < r) :
    (c.logFrom a).take (((c.logFrom a).filter (·.ledger < r)).length) = (c.logFrom a).filter (·.ledger < r) := by
  have hbelow : (c.logFrom a).filter (·.ledger < r) = (c.logFrom a).filter (·.ledger ≤ r - 1) := by
    refine List.filter_congr fun e _ => decide_eq_decide.2 ?_
    omega
  rw [hbelow]
  conv_lhs => rw [← filter_le_append_filter_lt (c.logFrom_ordered a) (r - 1)]
  rw [List.filter_append]
  simp

/-- A prefix of the log without replaced ledgers is a prefix of the new log. -/
theorem Chain.Replaced.take (hr : c.Replaced r c') (hpos : 0 < r) (hm : m ≤ (c.logFrom a).length)
    (hbelow : ∀ e ∈ (c.logFrom a).take m, e.ledger < r) :
    (c'.logFrom a).take m = (c.logFrom a).take m ∧ m ≤ (c'.logFrom a).length := by
  have hle : m ≤ ((c.logFrom a).filter (·.ledger < r)).length := by
    have hsame : ((c.logFrom a).take m).filter (·.ledger < r) = (c.logFrom a).take m :=
      List.filter_eq_self.2 fun e he => decide_eq_true (hbelow e he)
    have hsub := (((List.take_sublist m (c.logFrom a)).filter (·.ledger < r))).length_le
    rw [hsame, List.length_take] at hsub
    omega
  have hbelow' : ∀ d : Chain, m ≤ ((d.logFrom a).filter (·.ledger < r)).length →
      (d.logFrom a).take m = ((d.logFrom a).filter (·.ledger < r)).take m := by
    intro d hd
    rw [← take_length_below d a hpos, List.take_take, Nat.min_eq_left hd]
  have hle' := hle
  rw [← hr.logFrom] at hle'
  refine ⟨?_, le_trans hle' (List.length_filter_le _ _)⟩
  rw [hbelow' c' hle', hbelow' c hle, hr.logFrom]

/-- Replacing ledgers of which none was seen changes nothing for the indexer. -/
theorem Indexing.Settled.replace_unseen (hs : s.Settled) (hr : s.chain.Replaced r c')
    (hlt : s.indexer.store.lastLedger.getD 0 < r) (hrows : ∀ row ∈ s.indexer.store.events, row.ledger < r)
    (hhashes : ∀ e ∈ s.indexer.store.ledgerHashes, e.1 < r) : Indexing.Settled { s with chain := c' } := by
  refine ⟨⟨hs.sound.fresh, fun a ha => ?_, fun e he => ?_⟩, hs.fresh, fun a ha e he => ?_⟩
  · obtain ⟨L, m, hledger, hstored, hL⟩ := hs.sound.kept a ha
    rw [hledger] at hlt
    have hLr : L < r := hlt
    obtain ⟨htake, hm⟩ := hr.take (a := a) (by omega) hstored.le (hstored.holds.ledgers hrows)
    refine ⟨L, m, hledger, ⟨hstored.start, ?_, hm, ?_⟩, .inl (le_trans (le_of_lt hLr) hr.latest)⟩
    · rw [hr.upTo hLr]
      exact hstored.low
    · rw [Holds, htake]
      exact hstored.holds
  · have hlt := hhashes e he
    refine ⟨le_trans (le_of_lt hlt) hr.latest, ?_⟩
    rw [hr.hashes _ hlt]
    exact (hs.sound.hashes e he).2
  · obtain ⟨hle, hseen⟩ := hs.seen a ha e he
    refine ⟨hle, ?_⟩
    rw [hr.upTo (lt_of_le_of_lt (Nat.sub_le _ _) (hhashes e he))]
    exact hseen

/-- Replacing the ledger of the latest stored hash leaves a reorg to notice. -/
theorem Indexing.Settled.replace_latest (hs : s.Settled) (hr : s.chain.Replaced r c')
    (hlt : s.indexer.store.lastLedger.getD 0 < r)
    (hhighest : s.indexer.store.getLatestSequenceWithHash = some (r, x)) :
    ∃ a L, Indexing.Unnoticed { s with chain := c' } a L r x := by
  have hmem : (r, x) ∈ s.indexer.store.ledgerHashes := List.argmax_mem hhighest
  obtain ⟨a, ha⟩ : ∃ a, s.start = some a := by
    cases hstart : s.start with
    | none =>
      rw [hs.fresh hstart] at hmem
      cases hmem
    | some a => exact ⟨a, rfl⟩
  obtain ⟨L, m, hledger, hstored, -⟩ := hs.sound.kept a ha
  obtain ⟨hle, hseen⟩ := hs.seen a ha _ hmem
  obtain ⟨hrle, hx⟩ := hs.sound.hashes _ hmem
  have hLr : L < r := by
    rw [hledger] at hlt
    exact hlt
  rw [hstored.holds.length hstored.le] at hseen
  have hbelow : StoredUpTo s.chain a (r - 1) m s.indexer.store := ⟨by omega, hseen, hstored.le, hstored.holds⟩
  have hiff : ∀ n, decide (n < r) = decide (n ≤ r - 1) := fun n => decide_eq_decide.2 (by omega)
  refine ⟨a, L, ha, hledger, hstored.start, hLr, hr.latest, hhighest, ?_, ?_, fun e he helt => ?_, fun e he =>
    (hs.seen a ha e he).1⟩
  · rw [show x = s.chain.hashes r from hx]
    exact (hr.replaced r (le_refl r) hrle).symm
  · rw [hr.logFrom]
    simp only [hiff]
    exact (hbelow.holds.filter fun n => decide (n ≤ r - 1)).trans (congrArg (List.map _) hbelow.take_filter)
  · rw [hr.hashes _ helt]
    exact (hs.sound.hashes e he).2

/-! ## Polls -/

theorem started_some {op : IndexerOp} {t : IndexerState} (ha : s.start = some a) :
    s.started config op t = some a := by
  rw [Indexing.started, ha]
  rfl

/-- After everything was read, all events below a stored hash are stored. -/
theorem Indexing.Settled.poll (hs : s.Settled) {ctx : IndexerContext} {hashGiven : Bool}
    (hserves : Serves ctx.rpc s.chain (wholePage s.chain))
    (hlatest : ctx.rpc.latestLedger = s.chain.latestLedger hashGiven)
    (hd : Digestible ctx.config (wholePage s.chain) s.indexer.store s.chain (s.indexer.store.lastLedger.getD 0))
    (rounds : Nat) :
    Settles IsEndless (pollEvents rounds) ctx s.indexer fun _ t =>
      Indexing.Settled { s with indexer := t, start := s.started config .pollEvents t } := by
  obtain ⟨a, m, hold, hnew, hstored⟩ := hs.sound.ready
  refine ((@Indexing.Sound.poll config s hs.sound ctx _ hserves hashGiven hlatest hd rounds).and
    (pollEvents_settles hserves hlatest rfl hstored hs.sound.hashes hd rounds)).mono fun _ t ht => ?_
  obtain ⟨hsound, ⟨-, rfl⟩ | ⟨hread, hholds, ⟨L', hledger, hle, hL'⟩, -, hhashes⟩⟩ := ht
  · refine ⟨hsound, fun hnone => hs.fresh (Option.or_eq_none_iff.1 hnone).1, fun b hb e he => ?_⟩
    cases hstart : s.start with
    | none =>
      rw [hs.fresh hstart] at he
      cases he
    | some b' =>
      cases (started_some hstart).symm.trans hb
      exact hs.seen b hstart e he
  · have hsome : ∀ b, s.started config .pollEvents t = some b → b = a := by
      intro b hb
      cases hstart : s.start with
      | none =>
        rw [Indexing.started, hstart, hledger] at hb
        cases hb
        exact (hnew hstart).symm
      | some b' =>
        cases (started_some hstart).symm.trans hb
        exact (hold b hstart).symm
    refine ⟨hsound, fun hnone => ?_, fun b hb e he => ?_⟩
    · cases (hsound.fresh hnone).1.symm.trans hledger
    · cases hsome b hb
      have hrows := hholds.length (le_refl _)
      refine ⟨?_, by rw [hrows]; exact upTo_le_length _ _⟩
      rcases hhashes e he with hold' | hlast
      · cases hstart : s.start with
        | none =>
          rw [hs.fresh hstart] at hold'
          cases hold'
        | some b' =>
          cases hold b' hstart
          exact (hs.seen _ hstart e hold').1
      · rw [hlast]
        have hstart := hstored.start
        omega

/-- The rows below the ledger of the reorg are those of the new chain. -/
theorem Indexing.Unnoticed.length_rows (hu : s.Unnoticed a L q x) (hpos : 0 < q) :
    (s.indexer.store.events.filter (·.ledger < q)).length = upTo (s.chain.logFrom a) (q - 1) := by
  have hbelow : ∀ e : SorobanEvent, decide (e.ledger ≤ q - 1) = decide (e.ledger < q) := fun e =>
    decide_eq_decide.2 (by omega)
  have hlen := congrArg List.length hu.rows
  rw [List.length_map, List.length_map] at hlen
  simp only [upTo, hbelow]
  exact hlen

/-- Taking back the ledger of the reorg and storing its new hash leaves nothing to notice. -/
theorem Indexing.Unnoticed.takenBack (hu : s.Unnoticed a L q x) (m : IndexerMetrics) :
    Indexing.Settled { s with
      indexer := ⟨(s.indexer.store.rollbackFromLedger q x (s.chain.hashes q)).storeLedgerHash q (s.chain.hashes q), m⟩
      start := some a } := by
  have hlt := hu.lt
  have hlow := hu.low
  have hrows := hu.length_rows (by omega)
  -- the hashes kept are those below the ledger, and its new one
  have hkept : ∀ e ∈ (s.indexer.store.rollbackFromLedger q x (s.chain.hashes q)).storeLedgerHash q
      (s.chain.hashes q) |>.ledgerHashes, e = (q, s.chain.hashes q) ∨ e ∈ s.indexer.store.ledgerHashes ∧ e.1 < q := by
    intro e he
    rcases List.mem_cons.1 he with rfl | he
    · exact .inl rfl
    · obtain ⟨hmem, hltq⟩ := List.mem_filter.1 (List.mem_filter.1 he).1
      exact .inr ⟨hmem, of_decide_eq_true hltq⟩
  refine ⟨⟨fun hnone => (by cases hnone), fun b hb => ?_, fun e he => ?_⟩, fun hnone => (by cases hnone),
    fun b hb e he => ?_⟩
  · cases hb
    refine ⟨q - 1, upTo (s.chain.logFrom a) (q - 1), rfl, ⟨by omega, le_refl _, upTo_le_length _ _, ?_⟩, .inl ?_⟩
    · rw [Holds, ← hrows, show (s.indexer.store.events.filter (·.ledger < q)).length =
        ((s.chain.logFrom a).filter (·.ledger < q)).length by simpa using congrArg List.length hu.rows,
        take_length_below s.chain a (by omega)]
      exact hu.rows
    · exact le_trans (Nat.sub_le q 1) hu.le
  · rcases hkept e he with rfl | ⟨hmem, hltq⟩
    · exact ⟨hu.le, rfl⟩
    · exact ⟨le_trans (le_of_lt hltq) hu.le, hu.hashes e hmem hltq⟩
  · cases hb
    have hle : e.1 ≤ q ∧ a ≤ e.1 := by
      rcases hkept e he with rfl | ⟨hmem, hltq⟩
      · exact ⟨le_refl _, by omega⟩
      · exact ⟨le_of_lt hltq, hu.starts e hmem⟩
    refine ⟨hle.2, ?_⟩
    refine le_trans (upTo_mono _ (Nat.sub_le_sub_right hle.1 1)) (le_of_eq ?_)
    exact hrows.symm

/-- The poll that notices the reorg takes back what was stored of the ledger. -/
theorem Indexing.Unnoticed.poll (hu : s.Unnoticed a L q x) {ctx : IndexerContext}
    (hlatest : ctx.rpc.latestLedger = s.chain.latestLedger true) (hq : s.chain.latest = q) (rounds : Nat) :
    Settles IsEndless (pollEvents rounds) ctx s.indexer fun _ t =>
      Indexing.Settled { s with indexer := t, start := s.started config .pollEvents t } := by
  have hfound := @filter_replaced q (s.chain.hashes q) (q, x) rfl hu.differs
  have hlt := hu.lt
  simp only [pollEvents, settles_bind, settles_ask, settles_look, hlatest, hu.cursor, Option.getD_some,
    Chain.latestLedger, if_true, hq]
  -- the head is above the cursor, so the hashes are compared
  rw [if_neg (by omega)]
  simp only [checkReorg, settles_bind, settles_look, hu.highest, hfound, writeMetrics, writeStore, settles_alter,
    rebuildMetrics, settles_ask, settles_pure, if_true]
  rw [started_some hu.start]
  exact hu.takenBack _

/-! ## Starts -/

/-- Starting again keeps the hashes and at least as many rows. -/
theorem Indexing.Settled.resume_rows (hs : s.Settled) {ctx : IndexerContext}
    (hserves : Serves ctx.rpc s.chain (wholePage s.chain)) (hlatest : ctx.rpc.latestLedger.sequence = s.chain.latest)
    (hd : ∀ L ∈ s.indexer.store.lastLedger, ctx.config.retentionWindowLedgers < s.chain.latest - L →
      Digestible ctx.config (wholePage s.chain) s.indexer.store s.chain L) (rounds : Nat) :
    Settles IsEndless (initializeIndexer rounds) ctx s.indexer fun _ t =>
      t.store.ledgerHashes = s.indexer.store.ledgerHashes ∧
        s.indexer.store.events.length ≤ t.store.events.length := by
  refine initializeIndexer_settles (Q := fun store => store.ledgerHashes = s.indexer.store.ledgerHashes ∧
    s.indexer.store.events.length ≤ store.events.length) rounds ?_
  rw [hlatest]
  cases hledger : s.indexer.store.lastLedger with
  | none => exact ⟨rfl, le_refl _⟩
  | some L =>
    simp only [resumeCursor, settles_bind, settles_ask]
    split
    case isTrue hgap =>
      obtain ⟨a, m, -, -, hstored⟩ := hs.sound.ready
      rw [hledger, Option.getD_some] at hstored
      simp only [countGap, writeMetrics, settles_bind, settles_alter]
      refine (backfill_settles
        (i := ⟨s.indexer.store, { s.indexer.metrics with gapsDetected := s.indexer.metrics.gapsDetected + 1 }⟩)
        hserves hstored (by omega) (hd L hledger hgap) hgap rounds).mono fun _ t ht => ⟨ht.2.2, ?_⟩
      rw [ht.1.length (le_refl _), hstored.holds.length hstored.le]
      exact hstored.le
    case isFalse => exact ⟨rfl, le_refl _⟩

theorem Indexing.Settled.resume (hs : s.Settled) {ctx : IndexerContext}
    (hserves : Serves ctx.rpc s.chain (wholePage s.chain)) (hlatest : ctx.rpc.latestLedger.sequence = s.chain.latest)
    (hconfig : ctx.config = config)
    (hd : ∀ L ∈ s.indexer.store.lastLedger, config.retentionWindowLedgers < s.chain.latest - L →
      Digestible config (wholePage s.chain) s.indexer.store s.chain L) (rounds : Nat) :
    Settles IsEndless (initializeIndexer rounds) ctx s.indexer fun _ t =>
      Indexing.Settled { s with indexer := t, start := s.started config .initializeIndexer t } := by
  refine ((hs.sound.resume hserves hlatest hconfig hd rounds).and
    (hs.resume_rows hserves hlatest (by rw [hconfig]; exact hd) rounds)).mono fun _ t ht => ?_
  obtain ⟨hsound, hhashes, hrows⟩ := ht
  refine ⟨hsound, fun hnone => ?_, fun b hb e he => ?_⟩
  · change t.store.ledgerHashes = []
    rw [hhashes]
    exact hs.fresh (Option.or_eq_none_iff.1 hnone).1
  · have he' : e ∈ s.indexer.store.ledgerHashes := by
      rw [← hhashes]
      exact he
    cases hstart : s.start with
    | none =>
      rw [hs.fresh hstart] at he'
      cases he'
    | some b' =>
      cases (started_some hstart).symm.trans hb
      obtain ⟨hle, hseen⟩ := hs.seen b hstart e he'
      exact ⟨hle, le_trans hseen hrows⟩

/-- Starting again without a backfill does not notice anything either. -/
theorem Indexing.Unnoticed.resume (hu : s.Unnoticed a L q x) {ctx : IndexerContext}
    (hlatest : ctx.rpc.latestLedger.sequence = s.chain.latest)
    (hgap : ¬ ctx.config.retentionWindowLedgers < s.chain.latest - L) (rounds : Nat) :
    Settles IsEndless (initializeIndexer rounds) ctx s.indexer fun _ t =>
      Indexing.Unnoticed { s with indexer := t, start := s.started config .initializeIndexer t } a L q x := by
  have hsame : Settles IsEndless (initializeIndexer rounds) ctx s.indexer fun _ t =>
      t.store = s.indexer.store := by
    refine initializeIndexer_settles (Q := fun store => store = s.indexer.store) rounds ?_
    rw [hlatest, hu.cursor]
    simp only [resumeCursor, settles_bind, settles_ask, if_neg hgap, settles_pure]
  refine hsame.mono fun _ t ht => ?_
  refine ⟨started_some hu.start, ?_, hu.low, hu.lt, hu.le, ?_, hu.differs, ?_, ?_, ?_⟩
  · rw [← hu.cursor, ← ht]
  · rw [← hu.highest, ← ht]
  · rw [← hu.rows, ← ht]
  · rw [show Indexing.indexer _ = t from rfl, ht]
    exact hu.hashes
  · rw [show Indexing.indexer _ = t from rfl, ht]
    exact hu.starts

/-! ## Runs that converge -/

/-- Nothing to notice, or one reorg. -/
def Indexing.Following (s : Indexing) : Prop := s.Settled ∨ ∃ a L q x, s.Unnoticed a L q x

theorem Indexing.Unnoticed.not_noticed (hu : s.Unnoticed a L q x) : ¬ s.Noticed := fun h =>
  hu.differs (h (q, x) hu.highest)

/-- A poll in time leaves nothing to notice. -/
theorem Indexing.Following.poll (hs : s.Following) (hone : OneEach s.chain) {hashGiven : Bool} {parseStake order rounds}
    {r : Except Halt Unit} (hok : Handled config s (.call .pollEvents hashGiven r)) :
    Settles IsEndless (pollEvents rounds) ⟨config, s.chain.wholeRpc hashGiven, parseStake, order⟩ s.indexer fun _ t =>
      Indexing.Settled { s with indexer := t, start := s.started config .pollEvents t } := by
  obtain ⟨⟨hread, hend⟩, hfinds⟩ := hok
  rcases hs with hs | ⟨a, L, q, x, hu⟩
  · exact hs.poll (s.chain.wholeRpc_serves hashGiven) rfl (hone.digestible _ hread hend) rounds
  · obtain ⟨hq, rfl⟩ := hfinds (q, x) hu.highest hu.differs
    exact hu.poll rfl hq rounds

theorem Indexing.Following.resume (hs : s.Following) (hone : OneEach s.chain) {hashGiven : Bool}
    {parseStake order rounds} {r : Except Halt Unit} (hok : Handled config s (.call .initializeIndexer hashGiven r)) :
    Settles IsEndless (initializeIndexer rounds) ⟨config, s.chain.wholeRpc hashGiven, parseStake, order⟩ s.indexer
      fun _ t => Indexing.Following { s with indexer := t, start := s.started config .initializeIndexer t } := by
  rcases hs with hs | ⟨a, L, q, x, hu⟩
  · refine (@Indexing.Settled.resume s config hs _ (s.chain.wholeRpc_serves hashGiven) rfl rfl (fun L hL hgap => ?_)
      rounds).mono fun _ _ ht => .inl ht
    obtain ⟨⟨hread, hend⟩, -⟩ := hok L hL hgap
    exact hone.digestible _ hread hend
  · refine (hu.resume rfl (fun hgap => ?_) rounds).mono fun _ _ ht => .inr ⟨a, L, q, x, ht⟩
    exact hu.not_noticed (hok L hu.cursor hgap).2

/-- What one step keeps; after a poll there is nothing to notice. -/
theorem Indexing.Following.step {s' : Indexing} {move : ReorgMove} (hs : s.Following ∧ OneEach s.chain)
    (hok : Handled config s move) (hst : Indexing.ReorgStep config s move s') :
    (s'.Following ∧ OneEach s'.chain) ∧ ∀ hashGiven r, move = .call .pollEvents hashGiven r → s'.Settled := by
  obtain ⟨hs, hone⟩ := hs
  cases hst with
  | grow hg hone' =>
    refine ⟨⟨?_, hone'⟩, fun hashGiven r hmove => by cases hmove⟩
    rcases hs with hs | ⟨a, L, q, x, hu⟩
    · exact .inl (hs.grow hg)
    · exact .inr ⟨a, L, q, x, hu.grow hg⟩
  | replace hr hone' =>
    refine ⟨⟨?_, hone'⟩, fun hashGiven r hmove => by cases hmove⟩
    obtain ⟨hnoticed, hlt, hseen⟩ := hok
    rcases hs with hs | ⟨a, L, q, x, hu⟩
    · rcases hseen with ⟨hrows, hhashes⟩ | ⟨x, hhighest⟩
      · exact .inl (hs.replace_unseen hr hlt hrows hhashes)
      · obtain ⟨a, L, hu⟩ := hs.replace_latest hr hlt hhighest
        exact .inr ⟨a, L, _, x, hu⟩
    · exact absurd hnoticed hu.not_noticed
  | @call hashGiven parseStake order rounds op r t hrun hreturns =>
    have hpass : ∀ e, r = .error e → ¬ IsEndless e := by
      rintro e rfl hend
      exact hreturns (by rw [show e = .endless from hend])
    cases op with
    | pollEvents =>
      have hsettles : Settles IsEndless (IndexerOp.run rounds .pollEvents)
          ⟨config, s.chain.wholeRpc hashGiven, parseStake, order⟩ s.indexer fun _ t =>
            Indexing.Settled { s with indexer := t, start := s.started config .pollEvents t } := by
        simp only [IndexerOp.run, settles_bind, settles_pure]
        exact hs.poll hone hok
      obtain ⟨_, -, ht⟩ := hsettles.of_run hrun hpass
      exact ⟨⟨.inl ht, hone⟩, fun _ _ _ => ht⟩
    | initializeIndexer =>
      obtain ⟨_, -, ht⟩ := (hs.resume hone hok).of_run hrun hpass
      exact ⟨⟨ht, hone⟩, fun _ _ hmove => by cases hmove⟩

theorem Indexing.Settled.all (hs : s.Settled) (ha : s.start = some a)
    (hledger : s.indexer.store.lastLedger = some s.chain.latest) :
    s.indexer.store.events.map some = (s.chain.logFrom a).map SorobanEvent.record :=
  (hs.sound.indexed (h := []) (List.forall_mem_nil _)).reached a s.chain.latest ha hledger (le_refl _)

/-- A run whose reorgs are unseen or noticed in time converges. -/
theorem reorgs_converge {c : Chain} (hone : OneEach c) {metrics : IndexerMetrics} {h : List (Indexing × ReorgMove)}
    (hr : Run (Indexing.ReorgStep config) (Indexing.fresh c metrics) h s) (hok : Along (Handled config) h) :
    Converged h s := by
  have hfresh : Indexing.Settled (.fresh c metrics) :=
    ⟨Indexing.fresh_sound c metrics, fun _ => rfl, fun _ hnone => (by cases hnone)⟩
  have hinv : (s.Following ∧ OneEach s.chain) ∧
      ∀ t hashGiven r h', h = (t, .call .pollEvents hashGiven r) :: h' → s.Settled := by
    refine Run.inv (Handled config) (fun h s => (s.Following ∧ OneEach s.chain) ∧
      ∀ t hashGiven r h', h = (t, .call .pollEvents hashGiven r) :: h' → s.Settled)
      ⟨⟨.inl hfresh, hone⟩, fun t _ _ _ hnil => (by cases hnil)⟩ ?_ hr hok
    intro h s move s' _ hs hok hst
    obtain ⟨hfollowing, hpolled⟩ := Indexing.Following.step hs.1 hok hst
    refine ⟨hfollowing, fun t hashGiven r h' hcons => ?_⟩
    cases hcons
    exact hpolled hashGiven r rfl
  intro t hashGiven r h' hcons a ha hledger
  exact (hinv.2 t hashGiven r h' hcons).all ha hledger

end

/-! ## Two reorgs -/

def whole (c : Chain) : SorobanRpc := c.wholeRpc true

theorem Indexing.reorgStep_next (s : Indexing) (op : IndexerOp) (h : (s.answer whole op).1 ≠ .error .endless) :
    Indexing.ReorgStep sampleConfig s (.call op true (s.answer whole op).1) (s.next whole op) :=
  .call (show op.run 3 _ s.indexer = ((s.answer whole op).1, (s.answer whole op).2) from rfl) h

/-- One request, in the third ledger, and another one after a reorg. -/
def thirdLedger (txHash hash : String) : Chain :=
  { events := [sampleRequest 3 txHash], latest := 3, hashes := fun n => if n < 3 then toString n else hash
    ordered := List.pairwise_singleton _ _
    closed := fun e he => by
      cases List.mem_singleton.1 he
      exact ⟨Nat.succ_pos 2, le_refl 3⟩
    latest_lt := by decide }

def thirdPolled : Indexing :=
  ((Indexing.fresh (thirdLedger "a" "x") .new).next whole .initializeIndexer).next whole .pollEvents

/-- The reorg of the third ledger, found by the next poll. -/
def thirdReplaced : Indexing := { thirdPolled with chain := thirdLedger "b" "y" }

def thirdEnd : Indexing := (thirdReplaced.next whole .pollEvents).next whole .pollEvents

def thirdHistory : List (Indexing × ReorgMove) :=
  let s := Indexing.fresh (thirdLedger "a" "x") .new
  let t := s.next whole .initializeIndexer
  let u := thirdReplaced.next whole .pollEvents
  [(u, .call .pollEvents true (u.answer whole .pollEvents).1),
    (thirdReplaced, .call .pollEvents true (thirdReplaced.answer whole .pollEvents).1),
    (thirdPolled, .replace 3),
    (t, .call .pollEvents true (t.answer whole .pollEvents).1),
    (s, .call .initializeIndexer true (s.answer whole .initializeIndexer).1)]

theorem reorgs_converge_third : Converged thirdHistory thirdEnd ∧
    thirdEnd.indexer.store.lastLedger = some 3 ∧ thirdEnd.indexer.store.events.map Event.txHash = ["b"] := by
  refine ⟨?_, by decide +kernel, by decide +kernel⟩
  have hreplaced : thirdPolled.chain.Replaced 3 (thirdLedger "b" "y") := by
    refine ⟨by decide, by decide, by decide, fun n hn => ?_, fun n hn _ => ?_⟩
    · change (if n < 3 then toString n else "y") = if n < 3 then toString n else "x"
      rw [if_pos hn, if_pos hn]
    · change (if n < 3 then toString n else "y") ≠ if n < 3 then toString n else "x"
      rw [if_neg (by omega), if_neg (by omega)]
      decide
  have hr : Run (Indexing.ReorgStep sampleConfig) (Indexing.fresh (thirdLedger "a" "x") .new) thirdHistory thirdEnd :=
    ((((Run.nil.snoc (Indexing.reorgStep_next _ .initializeIndexer (by decide +kernel))).snoc
      (Indexing.reorgStep_next _ .pollEvents (by decide +kernel))).snoc
      (.replace hreplaced (List.pairwise_singleton _ _))).snoc
      (Indexing.reorgStep_next _ .pollEvents (by decide +kernel))).snoc
      (Indexing.reorgStep_next _ .pollEvents (by decide +kernel))
  have hdecodes : ∀ t : Indexing, ∀ L, (∀ e ∈ t.chain.events, e.record.isSome = true) → t.chain.latest = 3 →
      t.Decodes sampleConfig L := by
    intro t L hrecords hlatest
    refine ⟨fun e he => record_isSome.1 (hrecords e (List.mem_filter.1 he).1), fun hgap => ?_⟩
    simp only [sampleConfig, hlatest] at hgap
    omega
  have hone : OneEach (thirdLedger "a" "x") := List.pairwise_singleton _ _
  refine reorgs_converge hone hr ?_
  simp only [Along, thirdHistory, List.forall_mem_cons]
  refine ⟨⟨hdecodes _ _ (by decide +kernel) rfl, by decide +kernel⟩,
    ⟨hdecodes _ _ (by decide +kernel) rfl, by decide +kernel⟩, ⟨?_, by decide +kernel, .inr ⟨"x", by decide +kernel⟩⟩,
    ⟨hdecodes _ _ (by decide +kernel) rfl, by decide +kernel⟩, fun L hL => (by cases hL), List.forall_mem_nil _⟩
  exact (by decide +kernel : ∀ e ∈ thirdPolled.indexer.store.getLatestSequenceWithHash,
    e.2 = thirdPolled.chain.hashes e.1)

/-- The second of two ledgers is replaced after both were read. -/
def secondLedger (txHash hash : String) : Chain :=
  { events := [sampleRequest 1 "a", sampleRequest 2 txHash], latest := 2
    hashes := fun n => if n < 2 then toString n else hash
    ordered := List.pairwise_pair.2 (show 1 ≤ 2 by decide)
    closed := fun e he => by
      rcases List.mem_pair.1 he with rfl | rfl
      · exact ⟨Nat.le_refl 1, Nat.le_succ 1⟩
      · exact ⟨Nat.succ_pos 1, Nat.le_refl 2⟩
    latest_lt := quietChain.latest_lt }

theorem reorgs_missed :
    ¬ ∀ config c metrics h s, OneEach c → Run (Indexing.ReorgStep config) (Indexing.fresh c metrics) h s →
      Converged h s := by
  intro hclaim
  let s := (Indexing.fresh (secondLedger "b" "x") .new).next whole .pollEvents
  have hreplaced : s.chain.Replaced 2 (secondLedger "c" "y") := by
    refine ⟨by decide, by decide, by decide, fun n hn => ?_, fun n hn _ => ?_⟩
    · change (if n < 2 then toString n else "y") = if n < 2 then toString n else "x"
      rw [if_pos hn, if_pos hn]
    · change (if n < 2 then toString n else "y") ≠ if n < 2 then toString n else "x"
      rw [if_neg (by omega), if_neg (by omega)]
      decide
  have hone : ∀ txHash hash, OneEach (secondLedger txHash hash) := fun _ _ =>
    List.pairwise_pair.2 (show 1 < 2 by decide)
  have hr : Run (Indexing.ReorgStep sampleConfig) (Indexing.fresh (secondLedger "b" "x") .new) _
      (Indexing.next whole { s with chain := secondLedger "c" "y" } .pollEvents) :=
    ((Run.nil.snoc (Indexing.reorgStep_next _ .pollEvents (by decide +kernel))).snoc
      (.replace hreplaced (hone _ _))).snoc (Indexing.reorgStep_next _ .pollEvents (by decide +kernel))
  have hall := hclaim _ _ _ _ _ (hone _ _) hr _ _ _ _ rfl 1 (by decide +kernel) (by decide +kernel)
  exact absurd hall (by decide +kernel)

end QuorumCredit.Indexer
