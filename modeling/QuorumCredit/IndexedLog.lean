import QuorumCredit.Indexer
import QuorumCredit.Host.Log
import QuorumCredit.Host.Run
/-!
# The indexed log

What the indexer stores against the log of the chain. The stored rows are a
prefix of the log from the start ledger on, and no event up to `last_ledger` is
missing, as long as every value can be decoded, no two events agree in the columns
of the unique index, a poll inserts no more events than there are new ledgers, no
page ends inside a transaction and no chunk of a backfill holds more events than
ledgers.
-/

open Function

namespace QuorumCredit.Indexer

open Host InPlace

/-! ## The chain -/

/-- The ledgers closed so far, numbered from 1, with their events and hashes. -/
structure Chain where
  events : List SorobanEvent
  latest : Nat
  hashes : Nat → String
  ordered : events.Pairwise fun e e' => e.ledger ≤ e'.ledger
  closed : ∀ e ∈ events, 0 < e.ledger ∧ e.ledger ≤ latest
  latest_lt : latest < 2 ^ 32

namespace Chain

variable (c : Chain)

/-- The events from a ledger on that come after the cursor. -/
def eventsFrom (start : Nat) (cursor : Option String) : List SorobanEvent :=
  (match cursor with
    | some cursor => afterLast (fun e : SorobanEvent => decide (e.cursor = cursor)) c.events
    | none => c.events).filter (start ≤ ·.ledger)

def latestLedger (hashGiven : Bool) : LatestLedger :=
  { sequence := c.latest, hash := if hashGiven = true then some (c.hashes c.latest) else none }

/-- The service, with pages of the size asked for. -/
def rpc (hashGiven : Bool) : SorobanRpc :=
  { latestLedger := c.latestLedger hashGiven
    getEvents := fun start limit cursor => (c.eventsFrom start cursor).take limit }

/-- Further ledgers are closed. -/
structure Grows (c c' : Chain) : Prop where
  events : ∃ more, c'.events = c.events ++ more ∧ ∀ e ∈ more, c.latest < e.ledger
  latest : c.latest ≤ c'.latest
  hashes : ∀ n, n ≤ c.latest → c'.hashes n = c.hashes n

/-- The log from a ledger on. -/
def logFrom (start : Nat) : List SorobanEvent := c.events.filter (start ≤ ·.ledger)

end Chain

/-- The columns of the unique index. -/
def SorobanEvent.key (event : SorobanEvent) : Nat × String × String × String :=
  (event.ledger, event.txHash, event.category, event.action)

theorem record_eq_some {event : SorobanEvent} {row : Event} (h : event.record = some row) :
    row.key = event.key ∧ row.ledger = event.ledger := by
  simp only [SorobanEvent.record, decodeEvent, Option.bind_eq_bind, Option.bind_eq_some_iff] at h
  obtain ⟨⟨category, action, valueJson⟩, ⟨_, -, hdecoded⟩, hrow⟩ := h
  cases hdecoded
  cases hrow
  exact ⟨rfl, rfl⟩

/-! ## Storing a page -/

/-- Exactly the first `m` events of the log are stored. -/
def Holds (log : List SorobanEvent) (m : Nat) (s : Store) : Prop :=
  s.events.map some = (log.take m).map SorobanEvent.record

/-- Beyond the ledger, every event can be decoded and is told apart from the others. -/
structure Fit (log : List SorobanEvent) (ledger : Nat) : Prop where
  readable : ∀ e ∈ log, ledger < e.ledger → e.Readable
  distinct : log.Pairwise fun e e' => ledger < e'.ledger → e.key ≠ e'.key

/-- The cursor and the hashes are as they were. -/
structure SameCursor (i t : IndexerState) : Prop where
  lastLedger : t.store.lastLedger = i.store.lastLedger
  ledgerHashes : t.store.ledgerHashes = i.store.ledgerHashes

theorem SameCursor.refl (i : IndexerState) : SameCursor i i := ⟨rfl, rfl⟩

theorem SameCursor.trans {i t u : IndexerState} (h : SameCursor i t) (h' : SameCursor t u) : SameCursor i u :=
  ⟨h'.lastLedger.trans h.lastLedger, h'.ledgerHashes.trans h.ledgerHashes⟩

theorem sameCursor_insertEvent (s : Store) (row : Event) (m m' : IndexerMetrics) :
    SameCursor ⟨s, m⟩ ⟨s.insertEvent row, m'⟩ := by
  unfold Store.insertEvent
  split
  · exact ⟨rfl, rfl⟩
  · exact ⟨rfl, rfl⟩

section

variable {pass : Halt → Prop} {ctx : IndexerContext} {i : IndexerState} {log : List SorobanEvent} {L m n : Nat}

theorem processEvent_settles {event : SorobanEvent} {row : Event} (h : event.record = some row) :
    Settles pass (processEvent event) ctx i fun inserted t =>
      (inserted = true ↔ i.store.Lacks row) ∧ t.store = i.store.insertEvent row := by
  simp only [processEvent, writeStore, writeMetrics, settles_bind, settles_ask, settles_orFail h, settles_look,
    settles_alter, settles_pure, decide_eq_true_eq, and_self]

/-- An event that is stored is not stored again. -/
theorem Holds.known (hs : Holds log m i.store) {event : SorobanEvent} {row : Event} (h : event.record = some row)
    (hmem : event ∈ log.take m) : ¬ i.store.Lacks row := by
  intro hlacks
  have hrow : some row ∈ i.store.events.map some := by
    rw [hs, ← h]
    exact List.mem_map_of_mem hmem
  obtain ⟨row', hrow', heq⟩ := List.mem_map.1 hrow
  cases heq
  exact hlacks row hrow' rfl

/-- The next event of the log is new. -/
theorem Holds.lacks (hs : Holds log m i.store) (hfit : Fit log L) (hm : m < log.length) (hL : L < (log[m]).ledger)
    {row : Event} (h : (log[m]).record = some row) : i.store.Lacks row := by
  intro row' hrow' hkey
  have hmem : some row' ∈ (log.take m).map SorobanEvent.record := by
    rw [← hs]
    exact List.mem_map_of_mem hrow'
  obtain ⟨event', hevent', hrecord⟩ := List.mem_map.1 hmem
  obtain ⟨j, hj, rfl⟩ := List.getElem_of_mem hevent'
  rw [List.length_take] at hj
  rw [List.getElem_take] at hrecord
  refine List.pairwise_iff_getElem.1 hfit.distinct j m (by omega) hm (by omega) hL ?_
  rw [← (record_eq_some hrecord).1, ← (record_eq_some h).1, hkey]

theorem Holds.insert (hs : Holds log m i.store) (hm : m < log.length) {row : Event} (h : (log[m]).record = some row)
    (hlacks : i.store.Lacks row) : Holds log (m + 1) (i.store.insertEvent row) := by
  rw [Holds, Store.insertEvent, if_pos hlacks, List.map_append, hs, List.take_add_one, List.map_append,
    List.getElem?_eq_getElem hm]
  simp [h]

/-- A page that begins with stored events, or right after them, stores the others. -/
theorem processPage_settles (counted : IndexerMetrics → IndexerMetrics) (hfit : Fit log L)
    (hbeyond : ∀ e ∈ log.drop n, L < e.ledger) (hn : n ≤ m) (hm : m ≤ log.length) (hs : Holds log m i.store)
    (size total : Nat) :
    Settles pass (processPage counted ((log.drop n).take size) total) ctx i fun total' t =>
      ∃ m', m' = max m (min (n + size) log.length) ∧ total' + m = total + m' ∧ Holds log m' t.store ∧
        SameCursor i t := by
  induction size generalizing n m i total with
  | zero =>
    refine ⟨m, ?_, rfl, hs, .refl i⟩
    omega
  | succ size ih =>
    by_cases hlast : log.length ≤ n
    · rw [List.drop_eq_nil_of_le hlast]
      refine ⟨m, ?_, rfl, hs, .refl i⟩
      omega
    · have hnlt : n < log.length := by omega
      have hdrop : log.drop n = log[n] :: log.drop (n + 1) := List.drop_eq_getElem_cons hnlt
      have hL : L < (log[n]).ledger := hbeyond _ (by rw [hdrop]; exact List.mem_cons_self)
      have hlater : ∀ e ∈ log.drop (n + 1), L < e.ledger := fun e he =>
        hbeyond e (by rw [hdrop]; exact List.mem_cons_of_mem _ he)
      obtain ⟨row, hrow⟩ := Option.isSome_iff_exists.1 (record_isSome.2 (hfit.readable _ (List.getElem_mem hnlt) hL))
      rw [hdrop, List.take_succ_cons, processPage, settles_bind]
      refine (processEvent_settles hrow).mono fun inserted t ht => ?_
      obtain ⟨hinserted, hstore⟩ := ht
      rw [settles_bind]
      simp only [writeMetrics, settles_alter]
      let u : IndexerState := ⟨t.store, if inserted = true then counted t.metrics else t.metrics⟩
      have hu : SameCursor i u := by
        change SameCursor ⟨i.store, i.metrics⟩ ⟨t.store, _⟩
        rw [hstore]
        exact sameCursor_insertEvent i.store row _ _
      by_cases hstored : n < m
      · -- a stored event
        have hknown : ¬ i.store.Lacks row := by
          refine hs.known hrow (List.mem_take_iff_getElem.2 ⟨n, ?_, rfl⟩)
          omega
        have hsame : t.store = i.store := by rw [hstore, Store.insertEvent, if_neg hknown]
        have hnot : inserted = false := Bool.eq_false_iff.2 fun h => hknown (hinserted.1 h)
        have hheld : Holds log m t.store := by
          rw [hsame]
          exact hs
        refine (ih hlater hstored hm (i := u) hheld _).mono fun total' v hv => ?_
        obtain ⟨m', hm', htotal, hholds, hcursor⟩ := hv
        rw [hnot] at htotal
        exact ⟨m', by omega, htotal, hholds, hu.trans hcursor⟩
      · -- a new one
        have heq : n = m := by omega
        subst heq
        have hlacks := hs.lacks hfit hnlt hL hrow
        have hyes : inserted = true := hinserted.2 hlacks
        have hholds := hs.insert hnlt hrow hlacks
        rw [← hstore] at hholds
        refine (ih hlater (le_refl (n + 1)) hnlt (i := u) hholds _).mono fun total' v hv => ?_
        obtain ⟨m', hm', htotal, hholds', hcursor⟩ := hv
        rw [hyes, if_pos rfl] at htotal
        exact ⟨m', by omega, by omega, hholds', hu.trans hcursor⟩

end

/-! ## Reading the log -/

/-- How many events of the log are up to the ledger. -/
def upTo (log : List SorobanEvent) (ledger : Nat) : Nat := (log.filter (·.ledger ≤ ledger)).length

/-- No page of the size ends inside a transaction. -/
def PagesApart (size : Nat) (unread : List SorobanEvent) : Prop :=
  ∀ j < unread.length, size ∣ j + 1 → ∀ e ∈ unread[j]?, ∀ e' ∈ unread.drop (j + 1), e'.cursor ≠ e.cursor

/-- The service answers from the chain, with pages at least as long as asked for. -/
structure Serves (rpc : SorobanRpc) (c : Chain) (size : Nat → Nat) : Prop where
  events : ∀ start limit cursor, rpc.getEvents start limit cursor = (c.eventsFrom start cursor).take (size limit)
  large : ∀ limit, limit ≤ size limit

theorem Chain.rpc_serves (c : Chain) (hashGiven : Bool) : Serves (c.rpc hashGiven) c id :=
  ⟨fun _ _ _ => rfl, fun _ => le_refl _⟩

section

variable {c : Chain} {a L m n : Nat}

theorem Chain.logFrom_ordered (c : Chain) (a : Nat) : (c.logFrom a).Pairwise fun e e' => e.ledger ≤ e'.ledger :=
  c.ordered.filter _

theorem upTo_le_length (log : List SorobanEvent) (ledger : Nat) : upTo log ledger ≤ log.length :=
  List.length_filter_le _ _

theorem drop_upTo (c : Chain) (a ledger : Nat) :
    (c.logFrom a).drop (upTo (c.logFrom a) ledger) = (c.logFrom a).filter (ledger < ·.ledger) :=
  drop_length_filter (c.logFrom_ordered a) ledger

/-- Past the events up to a ledger, all are beyond it. -/
theorem beyond_of_upTo_le (hn : upTo (c.logFrom a) L ≤ n) : ∀ e ∈ (c.logFrom a).drop n, L < e.ledger := by
  intro e he
  obtain ⟨k, rfl⟩ := Nat.exists_eq_add_of_le hn
  rw [← List.drop_drop, drop_upTo] at he
  simpa using (List.mem_filter.1 (List.mem_of_mem_drop he)).2

/-- The events from the ledger after `L` on. -/
theorem Chain.eventsFrom_none (ha : a ≤ L + 1) :
    c.eventsFrom (L + 1) none = (c.logFrom a).drop (upTo (c.logFrom a) L) := by
  rw [drop_upTo, Chain.logFrom, List.filter_filter, Chain.eventsFrom]
  refine List.filter_congr fun e _ => ?_
  by_cases he : L + 1 ≤ e.ledger
  · have hlt : L < e.ledger := he
    have hle : a ≤ e.ledger := by omega
    simp only [decide_eq_true he, decide_eq_true hlt, decide_eq_true hle, Bool.and_self]
  · have hlt : ¬ L < e.ledger := he
    simp only [decide_eq_false he, decide_eq_false hlt, Bool.false_and]

theorem Chain.exists_append_logFrom (c : Chain) (a : Nat) : ∃ before, c.events = before ++ c.logFrom a := by
  cases a with
  | zero => exact ⟨[], (List.filter_eq_self.2 fun e _ => by simp).symm⟩
  | succ b => exact ⟨_, (filter_le_append_filter_lt c.ordered b).symm⟩

/-- The events after the cursor of the last one that was read. -/
theorem Chain.eventsFrom_some (hL : upTo (c.logFrom a) L ≤ n) (hn : n < (c.logFrom a).length)
    (hapart : ∀ e ∈ (c.logFrom a).drop (n + 1), e.cursor ≠ ((c.logFrom a)[n]).cursor) :
    c.eventsFrom (L + 1) (some ((c.logFrom a)[n]).cursor) = (c.logFrom a).drop (n + 1) := by
  obtain ⟨before, hbefore⟩ := c.exists_append_logFrom a
  have hsplit : c.events = (before ++ (c.logFrom a).take n) ++ (c.logFrom a)[n] :: (c.logFrom a).drop (n + 1) := by
    rw [List.append_assoc, List.getElem_cons_drop, List.take_append_drop, ← hbefore]
  have hafter : afterLast (fun e : SorobanEvent => decide (e.cursor = ((c.logFrom a)[n]).cursor)) c.events =
      (c.logFrom a).drop (n + 1) := by
    rw [hsplit]
    exact afterLast_append (by simp) (fun e he => by simpa using hapart e he) _
  unfold Chain.eventsFrom
  simp only [hafter]
  refine List.filter_eq_self.2 fun e he => ?_
  have hlt := @beyond_of_upTo_le c a L (n + 1) (by omega) e he
  exact decide_eq_true (Nat.succ_le_of_lt hlt)

end

section

variable {ctx : IndexerContext} {i : IndexerState} {c : Chain} {size : Nat → Nat} {a L m n : Nat}

/-- What is let pass: a loop that is given too few rounds. -/
def IsEndless (e : Halt) : Prop := e = .endless

/-- Where the loop over the pages stands: at the beginning, or after the event of the cursor. -/
def ReadTo (log : List SorobanEvent) (L size n : Nat) : Option String → Prop
  | none => n = upTo log L
  | some cursor => ∃ k, n = k + 1 ∧ upTo log L ≤ k ∧ (size ∣ n - upTo log L ∨ n = log.length) ∧
      ∃ e ∈ log[k]?, cursor = e.cursor

namespace ReadTo

variable {log : List SorobanEvent} {pageSize : Nat} {cursor : Option String}

theorem low (h : ReadTo log L pageSize n cursor) : upTo log L ≤ n := by
  cases cursor with
  | none => exact le_of_eq h.symm
  | some cursor =>
    obtain ⟨k, rfl, hk, -⟩ := h
    exact Nat.le_succ_of_le hk

theorem aligned (h : ReadTo log L pageSize n cursor) : pageSize ∣ n - upTo log L ∨ n = log.length := by
  cases cursor with
  | none =>
    cases (h : n = _)
    rw [Nat.sub_self]
    exact .inl (Nat.dvd_zero _)
  | some cursor =>
    obtain ⟨k, -, -, haligned, -⟩ := h
    exact haligned

/-- The next page begins where the last one ended, as no transaction was cut. -/
theorem page (h : ReadTo (c.logFrom a) L (size pageLimit) n cursor) (hserves : Serves ctx.rpc c size) (ha : a ≤ L + 1)
    (hapart : PagesApart (size pageLimit) ((c.logFrom a).drop (upTo (c.logFrom a) L))) :
    ctx.rpc.getEvents (L + 1) pageLimit cursor = ((c.logFrom a).drop n).take (size pageLimit) := by
  have haligned := h.aligned
  rw [hserves.events]
  cases cursor with
  | none =>
    cases (h : n = _)
    rw [Chain.eventsFrom_none ha]
  | some cursor =>
    obtain ⟨k, rfl, hk, -, e, he, rfl⟩ := h
    obtain ⟨hklt, rfl⟩ := List.getElem?_eq_some_iff.1 he
    rw [Chain.eventsFrom_some hk hklt]
    intro e' he'
    rcases haligned with hdvd | hend
    · refine hapart (k - upTo (c.logFrom a) L) ?_ ?_ _ ?_ e' ?_
      · rw [List.length_drop]
        omega
      · rwa [← Nat.sub_add_comm hk]
      · rw [List.getElem?_drop, Nat.add_sub_cancel' hk]
        exact he
      · rw [List.drop_drop, show upTo (c.logFrom a) L + (k - upTo (c.logFrom a) L + 1) = k + 1 by omega]
        exact he'
    · rw [List.drop_eq_nil_of_le (by omega)] at he'
      cases he'

/-- After a page the cursor is that of its last event. -/
theorem next (h : ReadTo log L pageSize n cursor) (hsize : 0 < pageSize) (hn : n < log.length) :
    ReadTo log L pageSize (min (n + pageSize) log.length)
      (((log.drop n).take pageSize).getLast?.map SorobanEvent.cursor) := by
  obtain ⟨k, hk⟩ : ∃ k, min (n + pageSize) log.length = k + 1 := by
    refine ⟨min (n + pageSize) log.length - 1, ?_⟩
    omega
  have hlow := h.low
  have hlastEvent : ((log.drop n).take pageSize).getLast? = log[k]? := by
    rw [List.getLast?_eq_getElem?, List.length_take, List.length_drop, List.getElem?_take_of_lt (by omega),
      List.getElem?_drop]
    congr 1
    omega
  obtain ⟨e, he⟩ : ∃ e, log[k]? = some e := ⟨_, List.getElem?_eq_getElem (by omega)⟩
  rw [hlastEvent, he, hk]
  refine ⟨k, rfl, by omega, ?_, e, he, rfl⟩
  by_cases hfull : n + pageSize ≤ log.length
  · refine h.aligned.imp (fun hdvd => ?_) (fun hend => by omega)
    rw [show k + 1 - upTo log L = n - upTo log L + pageSize by omega]
    exact Nat.dvd_add hdvd (Nat.dvd_refl _)
  · exact .inr (by omega)

end ReadTo

/-- The pages store all of the log if it has no more new events than `gap`. -/
theorem fetchPages_settles (hserves : Serves ctx.rpc c size) (ha : a ≤ L + 1) (hfit : Fit (c.logFrom a) L)
    (hapart : PagesApart (size pageLimit) ((c.logFrom a).drop (upTo (c.logFrom a) L))) {gap : Nat}
    (hnew : (c.logFrom a).length ≤ m + gap) {M total : Nat} (rounds : Nat) {cursor : Option String}
    (hread : ReadTo (c.logFrom a) L (size pageLimit) n cursor) (hnM : n ≤ M) (hM : M ≤ (c.logFrom a).length)
    (hs : Holds (c.logFrom a) M i.store) (htotal : total + m = M) :
    Settles IsEndless (fetchPages (L + 1) gap rounds cursor total) ctx i fun total' t =>
      total' + m = (c.logFrom a).length ∧ Holds (c.logFrom a) (c.logFrom a).length t.store ∧ SameCursor i t := by
  induction rounds generalizing cursor n M total i with
  | zero => rfl
  | succ rounds ih =>
    have hlarge := hserves.large pageLimit
    have hlimit : 0 < pageLimit := by decide
    have hlength : (((c.logFrom a).drop n).take (size pageLimit)).length =
        min (size pageLimit) ((c.logFrom a).length - n) := by
      rw [List.length_take, List.length_drop]
    rw [fetchPages, settles_bind, settles_ask]
    simp only [hread.page hserves ha hapart]
    rw [settles_bind]
    refine (processPage_settles id hfit (beyond_of_upTo_le hread.low) hnM hM hs (size pageLimit) total).mono
      fun total' t ht => ?_
    obtain ⟨M', hM', htotal', hs', hcursor⟩ := ht
    split
    case isTrue hlast =>
      -- a short page was the last one, and with `gap` new events there are no more
      rw [hlength] at hlast
      have hall : M' = (c.logFrom a).length := by omega
      rw [hall] at hs' htotal'
      exact ⟨by omega, hs', hcursor⟩
    case isFalse hmore =>
      rw [hlength] at hmore
      refine (ih (hread.next (by omega) (by omega)) (by omega) (by omega) hs' (by omega)).mono fun total'' u hu => ?_
      exact ⟨hu.1, hu.2.1, hcursor.trans hu.2.2⟩

theorem settles_u32 {pass : Halt → Prop} (hn : n < 2 ^ 32) (Q : Nat → IndexerState → Prop) :
    Settles pass (u32 n) ctx i Q ↔ Q n i := by
  rw [u32, settles_bind, settles_require hn]
  exact settles_pure n Q

/-- The events of some ledgers, and of some more. -/
theorem upTo_add (log : List SorobanEvent) {b stop : Nat} (hb : b ≤ stop) :
    upTo log stop = upTo log b + (log.filter fun e => b < e.ledger ∧ e.ledger ≤ stop).length := by
  induction log with
  | nil => rfl
  | cons e log ih =>
    simp only [upTo, ← List.countP_eq_length_filter, List.countP_cons, decide_eq_true_eq] at ih ⊢
    split <;> split <;> split <;> omega

/-- No chunk of ledgers after `L` holds more events than ledgers. -/
def ChunksFit (log : List SorobanEvent) (L chunk gap : Nat) : Prop :=
  ∀ j < gap, (log.filter fun e => L + j * chunk < e.ledger ∧ e.ledger ≤ L + j * chunk + chunk).length ≤ chunk

theorem ChunksFit.window {log : List SorobanEvent} {chunk gap j : Nat} (h : ChunksFit log L chunk gap)
    (hj : j * chunk < gap) : upTo log (L + j * chunk + chunk) ≤ upTo log (L + j * chunk) + chunk := by
  rw [upTo_add _ (Nat.le_add_right (L + j * chunk) chunk)]
  refine Nat.add_le_add_left ?_ _
  by_cases hzero : chunk = 0
  · rw [hzero, Nat.le_zero, List.length_eq_zero_iff, List.filter_eq_nil_iff]
    intro e _
    simp only [decide_eq_true_eq]
    omega
  · have hle : j * 1 ≤ j * chunk := Nat.mul_le_mul_left j (by omega)
    exact h j (by omega)

/-- The chunks store all events up to the ledger they end at. -/
theorem backfillFrom_settles (hserves : Serves ctx.rpc c size) (ha : a ≤ L + 1) (hfit : Fit (c.logFrom a) L)
    {toLedger : Nat} (hchunks : ChunksFit (c.logFrom a) L ctx.config.backfillChunkSize (toLedger - L))
    (hto : toLedger + ctx.config.backfillChunkSize < 2 ^ 32) {b M : Nat} (rounds : Nat) (hL : L ≤ b) (hb : b ≤ toLedger)
    (haligned : (∃ j, b = L + j * ctx.config.backfillChunkSize) ∨ b = toLedger)
    (hlow : upTo (c.logFrom a) b ≤ M) (hM : M ≤ (c.logFrom a).length) (hs : Holds (c.logFrom a) M i.store)
    (hcursor : b < toLedger ∨ i.store.lastLedger = some b) :
    Settles IsEndless (backfillFrom toLedger rounds (b + 1)) ctx i fun _ t =>
      ∃ M', upTo (c.logFrom a) toLedger ≤ M' ∧ M' ≤ (c.logFrom a).length ∧ Holds (c.logFrom a) M' t.store ∧
        t.store.lastLedger = some toLedger ∧ t.store.ledgerHashes = i.store.ledgerHashes := by
  induction rounds generalizing b M i with
  | zero =>
    rw [backfillFrom, settles_bind, settles_ask]
    split
    case isTrue hdone =>
      have heq : b = toLedger := by omega
      rw [heq] at hlow hcursor
      exact ⟨M, hlow, hM, hs, hcursor.resolve_left (lt_irrefl toLedger), rfl⟩
    case isFalse => rfl
  | succ rounds ih =>
    rw [backfillFrom, settles_bind, settles_ask]
    split
    case isTrue hdone =>
      have heq : b = toLedger := by omega
      rw [heq] at hlow hcursor
      exact ⟨M, hlow, hM, hs, hcursor.resolve_left (lt_irrefl toLedger), rfl⟩
    case isFalse hmore =>
      set chunk := ctx.config.backfillChunkSize with hchunk
      obtain ⟨j, hj⟩ : ∃ j, b = L + j * chunk := haligned.resolve_right (by omega)
      -- the window of this chunk holds at most `chunk` events
      have hwindow : upTo (c.logFrom a) (b + chunk) ≤ upTo (c.logFrom a) b + chunk := by
        rw [hj]
        exact hchunks.window (by omega)
      have hpage : ctx.rpc.getEvents (b + 1) chunk none =
          ((c.logFrom a).drop (upTo (c.logFrom a) b)).take (size chunk) := by
        rw [hserves.events, Chain.eventsFrom_none (show a ≤ b + 1 by omega)]
      have hfits : b + 1 + chunk < 2 ^ 32 := by omega
      simp only [settles_bind, settles_u32 hfits, hpage]
      refine (processPage_settles _ hfit (fun e he => ?_) hlow hM hs (size chunk) 0).mono fun _ t ht => ?_
      · have hlt := beyond_of_upTo_le (le_refl (upTo (c.logFrom a) b)) e he
        omega
      · obtain ⟨M', hM', -, hs', hsame⟩ := ht
        have hlarge := hserves.large chunk
        have hlen := upTo_le_length (c.logFrom a) (min (b + 1 + chunk - 1) toLedger)
        have hstop : upTo (c.logFrom a) (min (b + 1 + chunk - 1) toLedger) ≤ upTo (c.logFrom a) (b + chunk) := by
          rw [upTo_add _ (show min (b + 1 + chunk - 1) toLedger ≤ b + chunk by omega)]
          exact Nat.le_add_right _ _
        have hnext : min (b + 1 + chunk - 1) toLedger + 1 < 2 ^ 32 := by omega
        simp only [writeStore, settles_alter, settles_u32 hnext]
        refine (ih (b := min (b + 1 + chunk - 1) toLedger) (M := M')
          (i := ⟨t.store.setLastLedger (min (b + 1 + chunk - 1) toLedger), t.metrics⟩) (by omega) (by omega) ?_
          (by omega) (by omega) hs' (.inr rfl)).mono fun _ u hu => ?_
        · by_cases hlast : b + chunk ≤ toLedger
          · refine .inl ⟨j + 1, ?_⟩
            rw [Nat.add_mul, Nat.one_mul]
            omega
          · exact .inr (by omega)
        · obtain ⟨M'', hlow', hM'', hs'', hledger, hhashes⟩ := hu
          exact ⟨M'', hlow', hM'', hs'', hledger, hhashes.trans hsame.ledgerHashes⟩

end

/-! ## Calls -/

/-- What a call finds in the log after `last_ledger`: values that can be decoded, no two events
alike in the index, at most as many new events as ledgers, and pages and chunks that do not cut. -/
structure Digestible (config : IndexerConfig) (size : Nat → Nat) (s : Store) (c : Chain) (L : Nat) : Prop where
  readable : ∀ e ∈ c.logFrom (L + 1), e.Readable
  distinct : (c.logFrom (L + 1)).Pairwise fun e e' => e.key ≠ e'.key
  pages : c.latest - L ≤ config.retentionWindowLedgers → PagesApart (size pageLimit) (c.logFrom (L + 1)) ∧
    (c.logFrom (L + 1)).length ≤ (s.events.filter (L < ·.ledger)).length + (c.latest - L)
  chunks : config.retentionWindowLedgers < c.latest - L →
    ChunksFit (c.logFrom (L + 1)) L config.backfillChunkSize (c.latest - L) ∧
      c.latest + config.backfillChunkSize < 2 ^ 32

/-- The log from `a` on is stored up to `L` at least, in order and without gaps. -/
structure StoredUpTo (c : Chain) (a L m : Nat) (s : Store) : Prop where
  start : a ≤ L + 1
  low : upTo (c.logFrom a) L ≤ m
  le : m ≤ (c.logFrom a).length
  holds : Holds (c.logFrom a) m s

/-- The stored hashes are those of the chain. -/
def HashesOf (c : Chain) (s : Store) : Prop := ∀ e ∈ s.ledgerHashes, e.1 ≤ c.latest ∧ e.2 = c.hashes e.1

section

variable {ctx : IndexerContext} {i : IndexerState} {c : Chain} {size : Nat → Nat} {a L m : Nat}

theorem Chain.logFrom_succ (ha : a ≤ L + 1) : c.logFrom (L + 1) = (c.logFrom a).drop (upTo (c.logFrom a) L) :=
  Chain.eventsFrom_none ha

/-- Where the rows of a prefix lie beyond a ledger. -/
theorem Holds.filter {log : List SorobanEvent} {s : Store} (hs : Holds log m s) (p : Nat → Bool) :
    (s.events.filter fun e => p e.ledger).map some = ((log.take m).filter fun e => p e.ledger).map
      SorobanEvent.record := by
  unfold Holds at hs
  generalize log.take m = stored at hs
  generalize s.events = rows at hs
  induction stored generalizing rows with
  | nil =>
    have hnil : rows = [] := by simpa using hs
    rw [hnil]
    rfl
  | cons e stored ih =>
    cases rows with
    | nil => cases hs
    | cons row rows =>
      rw [List.map_cons, List.map_cons, List.cons.injEq] at hs
      have hledger := (record_eq_some hs.1.symm).2
      rw [List.filter_cons, List.filter_cons, hledger]
      split
      · rw [List.map_cons, List.map_cons, ih rows hs.2, hs.1]
      · exact ih rows hs.2

theorem Digestible.fit {config : IndexerConfig} {s : Store} (hd : Digestible config size s c L) (a : Nat) :
    Fit (c.logFrom a) L where
  readable e he hlt := by
    refine hd.readable e (List.mem_filter.2 ⟨(List.mem_filter.1 he).1, ?_⟩)
    exact decide_eq_true (Nat.succ_le_of_lt hlt)
  distinct := by
    have hkeys := List.pairwise_filter.1 hd.distinct
    refine List.Pairwise.filter _ (hkeys.imp fun {e e'} h hlt hkey => ?_)
    have hsame : e.ledger = e'.ledger := congrArg Prod.fst hkey
    exact h (decide_eq_true (by omega)) (decide_eq_true (by omega)) hkey

/-- All events up to the ledger are among the stored ones. -/
theorem StoredUpTo.take_filter {s : Store} (hs : StoredUpTo c a L m s) :
    ((c.logFrom a).take m).filter (·.ledger ≤ L) = (c.logFrom a).filter (·.ledger ≤ L) := by
  have hrest : ((c.logFrom a).drop m).filter (·.ledger ≤ L) = [] := by
    refine List.filter_eq_nil_iff.2 fun e he => ?_
    have hlt := beyond_of_upTo_le hs.low e he
    simp only [decide_eq_true_eq]
    omega
  conv_rhs => rw [← List.take_append_drop m (c.logFrom a), List.filter_append, hrest, List.append_nil]

/-- At most `gap` of the events are new. -/
theorem StoredUpTo.new_le (hs : StoredUpTo c a L m i.store) {gap : Nat}
    (h : (c.logFrom (L + 1)).length ≤ (i.store.events.filter (L < ·.ledger)).length + gap) :
    (c.logFrom a).length ≤ m + gap := by
  have hrows := congrArg List.length (hs.holds.filter fun n => decide (L < n))
  have hle : (((c.logFrom a).take m).filter (L < ·.ledger)).length + upTo (c.logFrom a) L ≤ m := by
    have hsplit := congrArg List.length
      (filter_le_append_filter_lt ((c.logFrom_ordered a).sublist (List.take_sublist m _)) L)
    rw [List.length_append, hs.take_filter, List.length_take] at hsplit
    unfold upTo
    omega
  rw [List.length_map, List.length_map] at hrows
  rw [Chain.logFrom_succ hs.start, List.length_drop] at h
  have := hs.le
  omega

/-- A backfill up to the latest ledger stores the whole log. -/
theorem backfill_settles (hserves : Serves ctx.rpc c size) (hs : StoredUpTo c a L m i.store) (hL : L < c.latest)
    (hd : Digestible ctx.config size i.store c L) (hgap : ctx.config.retentionWindowLedgers < c.latest - L)
    (rounds : Nat) :
    Settles IsEndless (backfill rounds L c.latest) ctx i fun _ t =>
      Holds (c.logFrom a) (c.logFrom a).length t.store ∧ t.store.lastLedger = some c.latest ∧
        t.store.ledgerHashes = i.store.ledgerHashes := by
  have hlatest := c.latest_lt
  have hstart : L + 1 < 2 ^ 32 := by omega
  obtain ⟨hchunks, hend⟩ := hd.chunks hgap
  have hchunks' : ChunksFit (c.logFrom a) L ctx.config.backfillChunkSize (c.latest - L) := by
    intro j hj
    refine le_trans (le_of_eq (congrArg List.length ?_)) (hchunks j hj)
    rw [Chain.logFrom, Chain.logFrom, List.filter_filter, List.filter_filter]
    refine List.filter_congr fun e _ => ?_
    have hstart := hs.start
    rw [← Bool.decide_and, ← Bool.decide_and]
    refine decide_eq_decide.2 (and_congr_right fun h => ?_)
    constructor <;> intro <;> omega
  have hall : upTo (c.logFrom a) c.latest = (c.logFrom a).length := by
    refine congrArg List.length (List.filter_eq_self.2 fun e he => decide_eq_true ?_)
    exact (c.closed e (List.mem_filter.1 he).1).2
  rw [backfill, settles_bind, settles_u32 hstart]
  refine (backfillFrom_settles hserves hs.start (hd.fit a) hchunks' hend rounds (le_refl L) (le_of_lt hL)
    (.inl ⟨0, by omega⟩) hs.low hs.le hs.holds (.inl hL)).mono fun _ t ht => ?_
  obtain ⟨M, hlow, hM, hholds, hledger, hhashes⟩ := ht
  have heq : M = (c.logFrom a).length := by omega
  rw [heq] at hholds
  exact ⟨hholds, hledger, hhashes⟩

theorem fetchNew_settles (hserves : Serves ctx.rpc c size) (hs : StoredUpTo c a L m i.store) (hL : L < c.latest)
    (hd : Digestible ctx.config size i.store c L) (rounds : Nat) :
    Settles IsEndless (fetchNew rounds L c.latest) ctx i fun _ t =>
      Holds (c.logFrom a) (c.logFrom a).length t.store ∧
        (∃ L', t.store.lastLedger = some L' ∧ L ≤ L' ∧ L' ≤ c.latest) ∧
        t.store.ledgerHashes = i.store.ledgerHashes := by
  have hlatest := c.latest_lt
  have hstart : L + 1 < 2 ^ 32 := by omega
  rw [fetchNew, settles_bind, settles_ask]
  change Settles _ (if ctx.config.retentionWindowLedgers < c.latest - L then _ else _) ctx i _
  split
  case isTrue hgap =>
    simp only [countGap, writeMetrics, settles_bind, settles_alter, settles_pure]
    refine (backfill_settles (i := ⟨i.store, { i.metrics with gapsDetected := i.metrics.gapsDetected + 1 }⟩) hserves hs
      hL hd hgap rounds).mono fun _ t ht => ?_
    exact ⟨ht.1, ⟨c.latest, ht.2.1, le_of_lt hL, le_refl _⟩, ht.2.2⟩
  case isFalse hgap =>
    obtain ⟨hapart, hnew⟩ := hd.pages (by omega)
    rw [Chain.logFrom_succ hs.start] at hapart
    have hnew' := hs.new_le hnew
    rw [settles_bind, settles_u32 hstart, settles_bind]
    have hread : ReadTo (c.logFrom a) L (size pageLimit) (upTo (c.logFrom a) L) none := rfl
    refine (fetchPages_settles hserves hs.start (hd.fit a) hapart hnew' rounds hread hs.low hs.le hs.holds
      (Nat.zero_add m)).mono fun total t ht => ?_
    obtain ⟨htotal, hholds, hsame⟩ := ht
    have hsmall : total % 2 ^ 32 = total := Nat.mod_eq_of_lt (by omega)
    have hlast : (if 0 < total then L + 1 + (total % 2 ^ 32 - 1) else c.latest) < 2 ^ 32 := by
      split <;> omega
    rw [settles_bind, settles_u32 hlast]
    simp only [writeStore, settles_bind, settles_alter, settles_pure]
    refine ⟨hholds, ⟨_, rfl, ?_⟩, hsame.ledgerHashes⟩
    rw [hsmall]
    split <;> omega

theorem HashesOf.store (hh : HashesOf c i.store) :
    HashesOf c (i.store.storeLedgerHash c.latest (c.hashes c.latest)) := by
  intro e he
  rcases List.mem_cons.1 he with rfl | he
  · exact ⟨le_refl _, rfl⟩
  · exact hh e (List.mem_filter.1 he).1

/-- Where the stored hashes are those of the chain, no reorg is found. -/
theorem checkReorg_settles {pass : Halt → Prop} (hh : HashesOf c i.store) (hashGiven : Bool) :
    Settles pass (checkReorg c.latest (c.latestLedger hashGiven).hash) ctx i fun reorg t =>
      reorg = false ∧ t.store.events = i.store.events ∧ t.store.lastLedger = i.store.lastLedger ∧
        HashesOf c t.store ∧ ∀ e ∈ t.store.ledgerHashes, e ∈ i.store.ledgerHashes ∨ e.1 = c.latest := by
  cases hashGiven with
  | false => exact ⟨rfl, rfl, rfl, hh, fun _ he => .inl he⟩
  | true =>
    have hnone := @filter_unchanged c.latest (c.hashes c.latest) i.store.getLatestSequenceWithHash fun e he hseq => by
      rw [← hseq]
      exact (hh e (List.argmax_mem he)).2
    simp only [Chain.latestLedger, if_true, checkReorg, settles_bind, settles_look, hnone, writeStore, settles_alter,
      settles_pure]
    refine ⟨trivial, rfl, rfl, hh.store, fun e he => ?_⟩
    rcases List.mem_cons.1 he with rfl | he
    · exact .inr rfl
    · exact .inl (List.mem_filter.1 he).1

theorem pollEvents_settles (hserves : Serves ctx.rpc c size) {hashGiven : Bool}
    (hlatest : ctx.rpc.latestLedger = c.latestLedger hashGiven) (hledger : i.store.lastLedger.getD 0 = L)
    (hs : StoredUpTo c a L m i.store) (hh : HashesOf c i.store) (hd : Digestible ctx.config size i.store c L)
    (rounds : Nat) :
    Settles IsEndless (pollEvents rounds) ctx i fun _ t => (c.latest ≤ L ∧ t = i) ∨ L < c.latest ∧
      Holds (c.logFrom a) (c.logFrom a).length t.store ∧
        (∃ L', t.store.lastLedger = some L' ∧ L ≤ L' ∧ L' ≤ c.latest) ∧ HashesOf c t.store ∧
        ∀ e ∈ t.store.ledgerHashes, e ∈ i.store.ledgerHashes ∨ e.1 = c.latest := by
  simp only [pollEvents, settles_bind, settles_ask, settles_look, hlatest, hledger]
  change Settles _ (if c.latest ≤ L then _ else _) ctx i _
  split
  case isTrue hle => exact .inl ⟨hle, rfl⟩
  case isFalse hlt =>
    rw [settles_bind]
    refine (checkReorg_settles hh hashGiven).mono fun reorg t ht => ?_
    obtain ⟨rfl, hevents, hkept, hhashes, hnew⟩ := ht
    rw [if_neg Bool.false_ne_true]
    have hs' : StoredUpTo c a L m t.store :=
      ⟨hs.start, hs.low, hs.le, by rw [Holds, hevents]; exact hs.holds⟩
    have hd' : Digestible ctx.config size t.store c L :=
      ⟨hd.readable, hd.distinct, by rw [hevents]; exact hd.pages, hd.chunks⟩
    refine (fetchNew_settles hserves hs' (by omega) hd' rounds).mono fun _ u hu => ?_
    refine .inr ⟨by omega, hu.1, hu.2.1, ?_⟩
    rw [HashesOf, hu.2.2]
    exact ⟨hhashes, hnew⟩

/-- The start leaves the rows as they are, fills them up, or sets the first cursor. -/
theorem initializeIndexer_settles {pass : Halt → Prop} {Q : Store → Prop} (rounds : Nat)
    (h : Settles pass (resumeCursor rounds ctx.rpc.latestLedger.sequence i.store.lastLedger) ctx i fun _ t =>
      Q t.store) :
    Settles pass (initializeIndexer rounds) ctx i fun _ t => Q t.store := by
  simp only [initializeIndexer, settles_bind, settles_ask, settles_look]
  refine h.mono fun _ t ht => ?_
  split
  · exact ht
  · exact ht

end

/-! ## Runs -/

/-- The chain, the indexer and the ledger it started at. -/
structure Indexing where
  chain : Chain
  indexer : IndexerState
  start : Option Nat

inductive IndexingMove where
  | grow
  | call (op : IndexerOp) (outcome : Except Halt Unit)

/-- The ledger the call starts at if the indexer has no cursor yet. -/
def IndexerOp.startLedger (config : IndexerConfig) (c : Chain) : IndexerOp → Nat
  | .initializeIndexer => config.startLedger c.latest
  | .pollEvents => 1

def Indexing.started (config : IndexerConfig) (s : Indexing) (op : IndexerOp) (t : IndexerState) : Option Nat :=
  s.start.or (if t.store.lastLedger.isSome = true then some (op.startLedger config s.chain) else none)

/-- The chain grows, or a call returns or panics. -/
inductive Indexing.Step (config : IndexerConfig) : Indexing → IndexingMove → Indexing → Prop
  | grow {s c'} : s.chain.Grows c' → Step config s .grow { s with chain := c' }
  | call {s hashGiven parseStake order rounds op r t} :
    op.run rounds ⟨config, s.chain.rpc hashGiven, parseStake, order⟩ s.indexer = (r, t) → r ≠ .error .endless →
      Step config s (.call op r) { s with indexer := t, start := s.started config op t }

/-- An indexer that has stored nothing yet. -/
def Indexing.fresh (c : Chain) (metrics : IndexerMetrics) : Indexing := ⟨c, ⟨.empty, metrics⟩, none⟩

/-- No call panics, the events up to `last_ledger` are stored exactly once and in order, and
once it has reached the latest ledger nothing else is stored. -/
structure LogIndexed (h : List (Indexing × IndexingMove)) (s : Indexing) : Prop where
  returned : ∀ e ∈ h, ∀ op r, e.2 = .call op r → r = .ok ()
  stored : ∀ a L, s.start = some a → s.indexer.store.lastLedger = some L →
    (s.indexer.store.events.filter (·.ledger ≤ L)).map some =
      (s.chain.events.filter fun e => a ≤ e.ledger ∧ e.ledger ≤ L).map SorobanEvent.record
  reached : ∀ a L, s.start = some a → s.indexer.store.lastLedger = some L → s.chain.latest ≤ L →
    s.indexer.store.events.map some = (s.chain.logFrom a).map SorobanEvent.record

/-- A call that reads the log can take in what it finds there. -/
def Digests (config : IndexerConfig) (s : Indexing) : IndexingMove → Prop
  | .grow => True
  | .call .pollEvents _ => Digestible config id s.indexer.store s.chain (s.indexer.store.lastLedger.getD 0)
  | .call .initializeIndexer _ => ∀ L ∈ s.indexer.store.lastLedger,
      config.retentionWindowLedgers < s.chain.latest - L → Digestible config id s.indexer.store s.chain L

/-- What the runs keep. -/
structure Indexing.Sound (s : Indexing) : Prop where
  fresh : s.start = none → s.indexer.store.lastLedger = none ∧ s.indexer.store.events = []
  kept : ∀ a, s.start = some a → ∃ L m, s.indexer.store.lastLedger = some L ∧ StoredUpTo s.chain a L m s.indexer.store ∧
    (L ≤ s.chain.latest ∨ L + 1 = a)
  hashes : HashesOf s.chain s.indexer.store

section

variable {config : IndexerConfig} {s s' : Indexing} {h : List (Indexing × IndexingMove)} {c c' : Chain} {a L m : Nat}

theorem Chain.Grows.logFrom (hg : c.Grows c') (a : Nat) :
    ∃ more, c'.logFrom a = c.logFrom a ++ more ∧ ∀ e ∈ more, c.latest < e.ledger ∧ a ≤ e.ledger := by
  obtain ⟨more, hmore, hnew⟩ := hg.events
  refine ⟨more.filter (a ≤ ·.ledger), ?_, fun e he => ?_⟩
  · rw [Chain.logFrom, hmore, List.filter_append]
    rfl
  · obtain ⟨hmem, hle⟩ := List.mem_filter.1 he
    exact ⟨hnew e hmem, of_decide_eq_true hle⟩

theorem StoredUpTo.grow {i : IndexerState} (hs : StoredUpTo c a L m i.store) (hg : c.Grows c')
    (hL : L ≤ c.latest ∨ L + 1 = a) : StoredUpTo c' a L m i.store := by
  obtain ⟨more, hmore, hnew⟩ := hg.logFrom a
  have hnone : more.filter (·.ledger ≤ L) = [] := by
    refine List.filter_eq_nil_iff.2 fun e he => ?_
    obtain ⟨hlatest, hstart⟩ := hnew e he
    simp only [decide_eq_true_eq]
    omega
  refine ⟨hs.start, ?_, ?_, ?_⟩
  · rw [hmore, upTo, List.filter_append, hnone, List.append_nil]
    exact hs.low
  · rw [hmore, List.length_append]
    exact Nat.le_add_right_of_le hs.le
  · rw [hmore, Holds, List.take_append_of_le_length hs.le]
    exact hs.holds

theorem Indexing.Sound.grow (hs : s.Sound) (hg : s.chain.Grows c') : Indexing.Sound { s with chain := c' } where
  fresh := hs.fresh
  kept a ha := by
    obtain ⟨L, m, hledger, hstored, hL⟩ := hs.kept a ha
    exact ⟨L, m, hledger, hstored.grow hg hL, hL.imp_left fun hle => le_trans hle hg.latest⟩
  hashes e he := by
    obtain ⟨hle, hhash⟩ := hs.hashes e he
    exact ⟨le_trans hle hg.latest, hhash.trans (hg.hashes _ hle).symm⟩

/-- Before the first cursor nothing is stored, from any start ledger. -/
theorem StoredUpTo.start_fresh {i : IndexerState} (hevents : i.store.events = []) (ha : a ≤ L + 1)
    (hlow : ∀ e ∈ c.events, a ≤ e.ledger → L < e.ledger) : StoredUpTo c a L 0 i.store := by
  refine ⟨ha, ?_, Nat.zero_le _, ?_⟩
  · refine le_of_eq (List.length_eq_zero_iff.2 (List.filter_eq_nil_iff.2 fun e he => ?_))
    obtain ⟨hmem, hle⟩ := List.mem_filter.1 he
    have hlt := hlow e hmem (of_decide_eq_true hle)
    simp only [decide_eq_true_eq]
    omega
  · rw [Holds, hevents]
    rfl

/-- What a poll or a backfill starts from. -/
theorem Indexing.Sound.ready (hs : s.Sound) : ∃ a m, (∀ b, s.start = some b → a = b) ∧ (s.start = none → a = 1) ∧
    StoredUpTo s.chain a (s.indexer.store.lastLedger.getD 0) m s.indexer.store := by
  cases hstart : s.start with
  | none =>
    obtain ⟨hledger, hevents⟩ := hs.fresh hstart
    refine ⟨1, 0, fun b hb => (by cases hb), fun _ => rfl, ?_⟩
    rw [hledger]
    exact .start_fresh hevents (by decide) fun e he _ => (s.chain.closed e he).1
  | some a =>
    obtain ⟨L, m, hledger, hstored, -⟩ := hs.kept a hstart
    refine ⟨a, m, fun b hb => Option.some.inj hb, fun hnone => (by cases hnone), ?_⟩
    rw [hledger]
    exact hstored

/-- After a call that has stored the whole log. -/
theorem Indexing.Sound.full {t : IndexerState} {op : IndexerOp}
    (hop : s.start = none → op.startLedger config s.chain = a) (hold : ∀ b, s.start = some b → a = b) (ha : a ≤ L + 1)
    (hholds : Holds (s.chain.logFrom a) (s.chain.logFrom a).length t.store) (hledger : t.store.lastLedger = some L)
    (hL : L ≤ s.chain.latest) (hhashes : HashesOf s.chain t.store) :
    Indexing.Sound { s with indexer := t, start := s.started config op t } := by
  have hstart : s.started config op t = some a := by
    rw [Indexing.started, hledger]
    cases hs : s.start with
    | none => rw [← hop hs]; rfl
    | some b => rw [hold b hs]; rfl
  refine ⟨fun hnone => ?_, fun b hb => ?_, hhashes⟩
  · cases hstart.symm.trans hnone
  · cases hstart.symm.trans hb
    exact ⟨L, _, hledger, ⟨ha, upTo_le_length _ _, le_refl _, hholds⟩, .inl hL⟩

/-- A call that reads nothing. -/
theorem Indexing.Sound.unread (hs : s.Sound) (op : IndexerOp) :
    Indexing.Sound { s with start := s.started config op s.indexer } := by
  refine ⟨fun hnone => ?_, fun b hb => ?_, hs.hashes⟩
  · exact hs.fresh (Option.or_eq_none_iff.1 hnone).1
  · cases hstart : s.start with
    | none =>
      change s.started config op s.indexer = some b at hb
      rw [Indexing.started, hstart, (hs.fresh hstart).1] at hb
      cases hb
    | some b' =>
      change s.started config op s.indexer = some b at hb
      rw [Indexing.started, hstart] at hb
      cases hb
      exact hs.kept b hstart

/-- The metrics are not looked at. -/
theorem Indexing.Sound.of_store {op : IndexerOp} {t u : IndexerState} (hstore : t.store = u.store)
    (ht : Indexing.Sound { s with indexer := t, start := s.started config op t }) :
    Indexing.Sound { s with indexer := u, start := s.started config op u } := by
  have hstart : s.started config op u = s.started config op t := by
    rw [Indexing.started, Indexing.started, hstore]
  rw [hstart]
  refine ⟨fun hnone => ?_, fun a ha => ?_, ?_⟩
  · rw [← hstore]
    exact ht.fresh hnone
  · rw [← hstore]
    exact ht.kept a ha
  · rw [← hstore]
    exact ht.hashes

theorem Indexing.Sound.poll (hs : s.Sound) {ctx : IndexerContext} {size : Nat → Nat}
    (hserves : Serves ctx.rpc s.chain size) {hashGiven : Bool}
    (hlatest : ctx.rpc.latestLedger = s.chain.latestLedger hashGiven)
    (hd : Digestible ctx.config size s.indexer.store s.chain (s.indexer.store.lastLedger.getD 0)) (rounds : Nat) :
    Settles IsEndless (pollEvents rounds) ctx s.indexer fun _ t =>
      Indexing.Sound { s with indexer := t, start := s.started config .pollEvents t } := by
  obtain ⟨a, m, hold, hnew, hstored⟩ := hs.ready
  refine (pollEvents_settles hserves hlatest rfl hstored hs.hashes hd rounds).mono fun _ t ht => ?_
  rcases ht with ⟨-, rfl⟩ | ⟨-, hholds, ⟨L', hledger, hle, hL'⟩, hhashes, -⟩
  · exact hs.unread .pollEvents
  · exact .full (fun hnone => (hnew hnone).symm) hold (le_trans hstored.start (by omega)) hholds hledger hL' hhashes

theorem Indexing.Sound.resume (hs : s.Sound) {ctx : IndexerContext} {size : Nat → Nat}
    (hserves : Serves ctx.rpc s.chain size) (hlatest : ctx.rpc.latestLedger.sequence = s.chain.latest)
    (hconfig : ctx.config = config)
    (hd : ∀ L ∈ s.indexer.store.lastLedger, config.retentionWindowLedgers < s.chain.latest - L →
      Digestible config size s.indexer.store s.chain L) (rounds : Nat) :
    Settles IsEndless (initializeIndexer rounds) ctx s.indexer fun _ t =>
      Indexing.Sound { s with indexer := t, start := s.started config .initializeIndexer t } := by
  refine (initializeIndexer_settles (Q := fun store => Indexing.Sound { s with
    indexer := ⟨store, s.indexer.metrics⟩
    start := s.started config .initializeIndexer ⟨store, s.indexer.metrics⟩ }) rounds ?_).mono fun _ t ht =>
      .of_store (t := ⟨t.store, s.indexer.metrics⟩) rfl ht
  rw [hlatest]
  cases hledger : s.indexer.store.lastLedger with
  | none =>
    -- the first cursor, right before the start ledger
    have hstart : s.start = none := by
      cases hs' : s.start with
      | none => rfl
      | some a =>
        obtain ⟨L, m, hL, -⟩ := hs.kept a hs'
        cases hL.symm.trans hledger
    obtain ⟨-, hevents⟩ := hs.fresh hstart
    simp only [resumeCursor, settles_bind, settles_ask, writeStore, settles_alter, hconfig]
    have hnew : ∀ t : IndexerState, t.store.lastLedger.isSome = true →
        s.started config .initializeIndexer t = some (config.startLedger s.chain.latest) := by
      intro t ht
      rw [Indexing.started, hstart, ht]
      rfl
    refine ⟨fun hnone => ?_, fun a ha => ?_, hs.hashes⟩
    · cases (hnew _ rfl).symm.trans hnone
    · cases (hnew _ rfl).symm.trans ha
      refine ⟨config.startLedger s.chain.latest - 1, 0, rfl, ?_, by omega⟩
      refine .start_fresh (i := ⟨s.indexer.store.setLastLedger (config.startLedger s.chain.latest - 1),
        s.indexer.metrics⟩) hevents (by omega) fun e he hle => ?_
      have hpos := (s.chain.closed e he).1
      omega
  | some L =>
    obtain ⟨a, hstart⟩ : ∃ a, s.start = some a := by
      cases hs' : s.start with
      | none => cases (hs.fresh hs').1.symm.trans hledger
      | some a => exact ⟨a, rfl⟩
    obtain ⟨L', m, hL', hstored, -⟩ := hs.kept a hstart
    cases hledger.symm.trans hL'
    simp only [resumeCursor, settles_bind, settles_ask, hconfig]
    change Settles _ (if config.retentionWindowLedgers < s.chain.latest - L then _ else _) _ _ _
    split
    case isTrue hgap =>
      simp only [countGap, writeMetrics, settles_bind, settles_alter]
      refine (backfill_settles
        (i := ⟨s.indexer.store, { s.indexer.metrics with gapsDetected := s.indexer.metrics.gapsDetected + 1 }⟩)
        hserves hstored (by omega) (by rw [hconfig]; exact hd L hledger hgap) (by rwa [hconfig]) rounds).mono
          fun _ t ht => ?_
      refine .full (fun hnone => (by cases hstart.symm.trans hnone)) (fun b hb => ?_) ?_ ht.1 ht.2.1 (le_refl _) ?_
      · exact Option.some.inj (hstart.symm.trans hb)
      · exact le_trans hstored.start (by omega)
      · rw [HashesOf, ht.2.2]
        exact hs.hashes
    case isFalse => exact hs.unread .initializeIndexer

/-- A call that can take in what it finds returns, and keeps the log. -/
theorem Indexing.Sound.call (hs : s.Sound) {hashGiven : Bool} {parseStake order rounds op r t}
    (hd : Digests config s (.call op r))
    (hrun : op.run rounds ⟨config, s.chain.rpc hashGiven, parseStake, order⟩ s.indexer = (r, t))
    (hreturns : r ≠ .error .endless) :
    r = .ok () ∧ Indexing.Sound { s with indexer := t, start := s.started config op t } := by
  have hsettles : Settles IsEndless (op.run rounds) ⟨config, s.chain.rpc hashGiven, parseStake, order⟩ s.indexer
      fun _ t => Indexing.Sound { s with indexer := t, start := s.started config op t } := by
    cases op with
    | initializeIndexer =>
      exact @Indexing.Sound.resume config s hs ⟨config, s.chain.rpc hashGiven, parseStake, order⟩ id
        (s.chain.rpc_serves hashGiven) rfl rfl hd rounds
    | pollEvents =>
      simp only [IndexerOp.run, settles_bind, settles_pure]
      exact @Indexing.Sound.poll config s hs ⟨config, s.chain.rpc hashGiven, parseStake, order⟩ id
        (s.chain.rpc_serves hashGiven) hashGiven rfl hd rounds
  obtain ⟨_, hr, ht⟩ := hsettles.of_run hrun fun e he hend => hreturns (by rw [he, show e = .endless from hend])
  exact ⟨hr, ht⟩

theorem Indexing.Sound.step (hs : s.Sound) {move : IndexingMove} (hd : Digests config s move)
    (hst : Indexing.Step config s move s') :
    s'.Sound ∧ ∀ op r, move = .call op r → r = .ok () := by
  cases hst with
  | grow hg => exact ⟨hs.grow hg, fun op r hmove => by cases hmove⟩
  | call hrun hreturns =>
    obtain ⟨hok, hsound⟩ := hs.call hd hrun hreturns
    refine ⟨hsound, fun op r hmove => ?_⟩
    cases hmove
    exact hok

theorem Indexing.Sound.indexed (hs : s.Sound) (hreturned : ∀ e ∈ h, ∀ op r, e.2 = .call op r → r = .ok ()) :
    LogIndexed h s := by
  refine ⟨hreturned, fun a L ha hL => ?_, fun a L ha hL hlatest => ?_⟩
  · obtain ⟨L', m, hL', hstored, -⟩ := hs.kept a ha
    cases hL.symm.trans hL'
    refine (hstored.holds.filter fun n => decide (n ≤ L)).trans ?_
    rw [hstored.take_filter, Chain.logFrom, List.filter_filter]
    refine congrArg (List.map _) (List.filter_congr fun e _ => ?_)
    rw [← Bool.decide_and]
    exact decide_eq_decide.2 and_comm
  · obtain ⟨L', m, hL', hstored, -⟩ := hs.kept a ha
    cases hL.symm.trans hL'
    have hall : upTo (s.chain.logFrom a) L = (s.chain.logFrom a).length := by
      refine congrArg List.length (List.filter_eq_self.2 fun e he => decide_eq_true ?_)
      exact le_trans (s.chain.closed e (List.mem_filter.1 he).1).2 hlatest
    have hlow := hstored.low
    have hle := hstored.le
    have hholds := hstored.holds
    rw [Holds, List.take_of_length_le (by omega)] at hholds
    exact hholds

theorem Indexing.fresh_sound (c : Chain) (metrics : IndexerMetrics) : (Indexing.fresh c metrics).Sound :=
  ⟨fun _ => ⟨rfl, rfl⟩, fun _ hnone => (by cases hnone), fun _ he => (by cases he)⟩

/-- A run whose calls can take in what they find loses no event and stores none twice. -/
theorem log_indexed {c : Chain} {metrics : IndexerMetrics}
    (hr : Run (Indexing.Step config) (Indexing.fresh c metrics) h s) (hok : Along (Digests config) h) :
    LogIndexed h s := by
  have hsound : s.Sound ∧ ∀ e ∈ h, ∀ op r, e.2 = .call op r → r = .ok () := by
    refine Run.inv (Digests config) (fun h s => s.Sound ∧ ∀ e ∈ h, ∀ op r, e.2 = .call op r → r = .ok ())
      ⟨Indexing.fresh_sound c metrics, List.forall_mem_nil _⟩ ?_ hr hok
    intro h s move s' _ hs hd hst
    obtain ⟨hsound, hreturned⟩ := hs.1.step hd hst
    exact ⟨hsound, List.forall_mem_cons.2 ⟨hreturned, hs.2⟩⟩
  exact hsound.1.indexed hsound.2

end

/-! ## Two runs -/

def sampleConfig : IndexerConfig := { retentionWindowLedgers := 100, backfillChunkSize := 100, deployLedger := some 1 }

/-- A loan request of 16 zero bytes. -/
def sampleRequest (ledger : Nat) (txHash : String) : SorobanEvent :=
  { ledger, ledgerClosedAt := "", contractId := "", topic := ["AAAADwAAAAVsb2Fu", "AAAADwAAAAZyZXF1ZXN0"]
    value := "AAAAAAAAAAAAAAAAAAAAAA==", txHash, inSuccessfulContractCall := none }

/-- What the call answers, from the service. -/
def Indexing.answer (rpc : Chain → SorobanRpc) (s : Indexing) (op : IndexerOp) : Except Halt Unit × IndexerState :=
  op.run 3 ⟨sampleConfig, rpc s.chain, fun _ => none, ⟨⟨id, .refl⟩, ⟨id, .refl⟩⟩⟩ s.indexer

def Indexing.next (rpc : Chain → SorobanRpc) (s : Indexing) (op : IndexerOp) : Indexing :=
  { s with indexer := (s.answer rpc op).2, start := s.started sampleConfig op (s.answer rpc op).2 }

/-- The service, with the hash of the latest ledger. -/
def paged (c : Chain) : SorobanRpc := c.rpc true

theorem Indexing.step_next (s : Indexing) (op : IndexerOp) (h : (s.answer paged op).1 ≠ .error .endless) :
    Indexing.Step sampleConfig s (.call op (s.answer paged op).1) (s.next paged op) :=
  .call (show op.run 3 _ s.indexer = ((s.answer paged op).1, (s.answer paged op).2) from rfl) h

/-- Two requests in the first ledger. -/
def busyChain : Chain :=
  { events := [sampleRequest 1 "a", sampleRequest 1 "b"], latest := 1, hashes := fun n => toString n
    ordered := by decide, closed := by decide, latest_lt := by decide }

/-- And one in the second. -/
def busyChainGrown : Chain :=
  { events := [sampleRequest 1 "a", sampleRequest 1 "b", sampleRequest 2 "c"], latest := 2
    hashes := fun n => toString n, ordered := by decide, closed := by decide, latest_lt := by decide }

/-- One request in each of two ledgers. -/
def quietChain : Chain :=
  { events := [sampleRequest 1 "a", sampleRequest 2 "b"], latest := 2, hashes := fun n => toString n
    ordered := by decide, closed := by decide, latest_lt := by decide }

def quietStart : Indexing := .fresh quietChain .new

/-- The indexer starts and polls. -/
def quietHistory : List (Indexing × IndexingMove) :=
  let s := quietStart.next paged .initializeIndexer
  [(s, .call .pollEvents (s.answer paged .pollEvents).1),
    (quietStart, .call .initializeIndexer (quietStart.answer paged .initializeIndexer).1)]

def quietEnd : Indexing := (quietStart.next paged .initializeIndexer).next paged .pollEvents

theorem log_indexed_quiet : LogIndexed quietHistory quietEnd ∧ quietEnd.indexer.store.lastLedger = some 2 := by
  constructor
  · have hr : Run (Indexing.Step sampleConfig) quietStart quietHistory quietEnd :=
      (Run.nil.snoc (Indexing.step_next _ _ (by decide +kernel))).snoc (Indexing.step_next _ _ (by decide +kernel))
    refine log_indexed hr (List.forall_mem_cons.2 ⟨?_, List.forall_mem_singleton.2 fun L hL => (by cases hL)⟩)
    have hreadable : ∀ e ∈ quietChain.logFrom 1, e.record.isSome = true := by decide +kernel
    refine ⟨fun e he => record_isSome.1 (hreadable e he), by decide +kernel, fun _ => ⟨?_, by decide +kernel⟩, ?_⟩
    · intro j hj hdvd
      have hle : 200 ≤ j + 1 := Nat.le_of_dvd (Nat.succ_pos j) hdvd
      have hlt : j < 2 := hj
      omega
    · intro hgap
      exact absurd hgap (by decide +kernel)
  · decide +kernel

theorem log_lost :
    ¬ ∀ config c metrics h s, Run (Indexing.Step config) (Indexing.fresh c metrics) h s → LogIndexed h s := by
  intro hclaim
  let s := (Indexing.fresh busyChain .new).next paged .pollEvents
  have hgrows : Chain.Grows s.chain busyChainGrown :=
    ⟨⟨[sampleRequest 2 "c"], rfl, by decide⟩, by decide, fun _ _ => rfl⟩
  have hr : Run (Indexing.Step sampleConfig) (Indexing.fresh busyChain .new) _
      (Indexing.next paged { s with chain := busyChainGrown } .pollEvents) :=
    ((Run.nil.snoc (Indexing.step_next _ .pollEvents (by decide +kernel))).snoc (.grow hgrows)).snoc
      (Indexing.step_next _ .pollEvents (by decide +kernel))
  have hreached := (hclaim _ _ _ _ _ hr).reached 1 2 (by decide +kernel) (by decide +kernel) (by decide +kernel)
  exact absurd (congrArg List.length hreached) (by decide +kernel)

end QuorumCredit.Indexer
