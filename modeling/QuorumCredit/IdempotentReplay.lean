import QuorumCredit.Idempotency
import QuorumCredit.Host.Run
/-!
# Replays belong to their request

Requests arrive, handlers end, time passes and records are swept or evicted in any
order. The end of a handler acts on whatever record its key has by then. As long as
that is not the record of a later request, every replay repeats the response of a
handler that ran for the same request, and no second handler is started beside one
that holds its record.
-/

namespace QuorumCredit.Server

open Host

/-! ## Runs -/

/-- A handler that was started under a record; `evicted` if its record was dropped for another one. -/
structure HandlerRun where
  key : String
  fingerprint : String
  begunAt : Nat
  ended : Option Outcome
  evicted : Bool
deriving DecidableEq

/-- The records of a store, and the handlers in the order in which they were started. -/
structure Serving where
  now : Nat
  records : IdempotencyStore
  runs : List HandlerRun

inductive ServingMove where
  | request (req : IdempotentRequest) (reply : Reply)
  | ends (j : Nat) (outcome : Outcome)
  | tick
  | cleanup

section

variable (opts : IdempotencyStoreOptions) (hash : String → String)

def Serving.start (now : Nat) : Serving := ⟨now, .empty, []⟩

/-- A handler whose record may be gone from `records`. -/
def HandlerRun.passed (r : HandlerRun) (before records : IdempotencyStore) : HandlerRun :=
  { r with evicted := r.evicted || decide (r.key ∈ before.keys ∧ r.key ∉ records.keys) }

/-- A handler is started for the record of `key`, and some records are dropped. -/
def Serving.started (s : Serving) (records : IdempotencyStore) (key fingerprint : String) : Serving where
  now := s.now
  records := records
  runs := s.runs.map (·.passed s.records records) ++ [⟨key, fingerprint, s.now, none, decide (key ∉ records.keys)⟩]

/-- A request after its body was read. -/
def Serving.request (s : Serving) (req : IdempotentRequest) : Serving :=
  match (withIdempotency opts hash s.records s.now req).1, req.keys.head? with
  | .run, some key =>
    s.started (withIdempotency opts hash s.records s.now req).2 (scopedKey hash req key) (fingerprint hash req)
  | _, _ => { s with records := (withIdempotency opts hash s.records s.now req).2 }

def Serving.ends (s : Serving) (j : Nat) (run : HandlerRun) (outcome : Outcome) : Serving where
  now := s.now
  records := onFinish opts s.records s.now run.key (captureResponse opts.maxBodyBytes outcome)
  runs := s.runs.set j { run with ended := some outcome }

/-- A handler's response is sent or its connection closed, once, at any time. -/
inductive Serving.Step : Serving → ServingMove → Serving → Prop
  | request {s req} : Step s (.request req (withIdempotency opts hash s.records s.now req).1) (s.request opts hash req)
  | ends {s j run outcome} : s.runs[j]? = some run → run.ended = none →
      Step s (.ends j outcome) (s.ends opts j run outcome)
  | tick {s now} : s.now ≤ now → Step s .tick { s with now }
  | cleanup {s} : Step s .cleanup { s with records := s.records.cleanup s.now }

/-! ## What is claimed -/

/-- `run` is the `j`-th handler, started for the key. -/
def Serving.Begun (s : Serving) (key : String) (j : Nat) (run : HandlerRun) : Prop :=
  s.runs[j]? = some run ∧ run.key = key

/-- The three parts for one step. -/
structure StepIdempotent (t : Serving) (l : ServingMove) (s : Serving) : Prop where
  replayed : ∀ req key response, l = .request req (.replay response) → key ∈ req.keys.head? →
    ∃ j run outcome, t.Begun (scopedKey hash req key) j run ∧ run.fingerprint = fingerprint hash req ∧
      run.ended = some outcome ∧
      ∃ sent, captureResponse opts.maxBodyBytes outcome = some sent ∧ response = sent.replayed
  own : ∀ j outcome, l = .ends j outcome → ∀ key i later record, t.Begun key i later → j < i →
    t.records.get key = some record → s.records.get key = some record
  single : ∀ req key, l = .request req .run → key ∈ req.keys.head? →
    (∀ record, t.records.get (scopedKey hash req key) = some record → record.expiresAt ≤ t.now) ∧
    ∀ j run, t.Begun (scopedKey hash req key) j run → run.ended = none → run.evicted = false →
      run.begunAt + opts.inFlightTtlMs ≤ t.now

def Idempotent : List (Serving × ServingMove) → Serving → Prop
  | [], _ => True
  | (t, l) :: _, s => StepIdempotent opts hash t l s

/-- The record of a completed handler, completed again with the same response at the same moment. -/
def Recompleted (now : Nat) (outcome : Outcome) (record : IdempotencyRecord) : Prop :=
  ∃ response, captureResponse opts.maxBodyBytes outcome = some response ∧ response.statusCode < 500 ∧
    record = { record with state := .completed, response := some response, expiresAt := now + opts.ttlMs }

/-- When a handler ends, no later one was started for its key whose record is still stored, unless
that was completed at this moment with the same response. -/
def Undisturbed (s : Serving) : ServingMove → Prop
  | .ends j outcome => ∀ key run i later record, s.Begun key j run → s.Begun key i later → j < i →
      s.records.get key = some record → Recompleted opts s.now outcome record
  | _ => True

end

/-! ## What the store does -/

/-- Only expired records are gone. -/
structure Swept (now : Nat) (records records' : IdempotencyStore) : Prop where
  kept : ∀ key record, records'.get key = some record → records.get key = some record
  unexpired : ∀ key record, records.get key = some record → now < record.expiresAt → records'.get key = some record

namespace IdempotencyStore

variable (records : IdempotencyStore) (now : Nat)

theorem swept_refl : Swept now records records := ⟨fun _ _ h => h, fun _ _ h _ => h⟩

theorem swept_cleanup : Swept now records (records.cleanup now) where
  kept key record h := by
    rw [cleanup, OrderedMap.get_filter, Option.filter_eq_some_iff] at h
    exact h.1
  unexpired key record h hnow := by
    rw [cleanup, OrderedMap.get_filter, Option.filter_eq_some_iff]
    exact ⟨h, decide_eq_true hnow⟩

theorem swept_lookup (key : String) : Swept now records (records.lookup now key).2 := by
  unfold lookup
  split
  case h_1 record hget =>
    split
    case isTrue hexpired =>
      constructor
      · intro key' record' h
        rw [OrderedMap.get_erase] at h
        split at h
        · cases h
        · exact h
      · intro key' record' h hnow
        have hne : key' ≠ key := by
          rintro rfl
          rw [hget] at h
          cases h
          omega
        rw [OrderedMap.get_erase, if_neg hne, h]
    case isFalse => exact swept_refl records now
  case h_2 => exact swept_refl records now

theorem lookup_none {key : String} (h : (records.lookup now key).1 = none) :
    (records.lookup now key).2.get key = none ∧ ∀ record, records.get key = some record → record.expiresAt ≤ now := by
  unfold lookup at h ⊢
  cases hget : records.get key with
  | none => exact ⟨hget, fun record hrecord => by cases hrecord⟩
  | some record =>
    simp only [hget] at h ⊢
    by_cases hexpired : record.expiresAt ≤ now
    · rw [if_pos hexpired]
      refine ⟨by rw [OrderedMap.get_erase, if_pos rfl], fun record' hrecord' => ?_⟩
      cases hrecord'
      exact hexpired
    · rw [if_neg hexpired] at h
      cases h

theorem lookup_some {key : String} {record : IdempotencyRecord} (h : (records.lookup now key).1 = some record) :
    records.get key = some record := by
  unfold lookup at h
  split at h
  case h_1 record' hget =>
    split at h
    · cases h
    · exact hget.trans h
  case h_2 => cases h

theorem get_evictLoop (maxRecords turns : Nat) {key : String} {record : IdempotencyRecord}
    (h : (evictLoop maxRecords turns records).get key = some record) : records.get key = some record := by
  induction turns generalizing records with
  | zero => exact h
  | succ turns ih =>
    unfold evictLoop at h
    split at h
    · split at h
      · exact h
      · have hkept := ih _ h
        rw [OrderedMap.get_erase] at hkept
        split at hkept
        · cases hkept
        · exact hkept
    · exact h

theorem get_beginRecord {opts : IdempotencyStoreOptions} {key fingerprint key' : String} {record : IdempotencyRecord}
    (h : (records.beginRecord opts now key fingerprint).get key' = some record) :
    (key' = key ∧ record = ⟨fingerprint, .inFlight, none, now, now + opts.inFlightTtlMs⟩) ∨
      key' ≠ key ∧ records.get key' = some record := by
  have hset := get_evictLoop _ _ _ h
  rw [OrderedMap.get_set] at hset
  split at hset
  case isTrue hkey => exact .inl ⟨hkey, (Option.some.inj hset).symm⟩
  case isFalse hkey => exact .inr ⟨hkey, hset⟩

end IdempotencyStore

/-! ## What the wrapper does -/

section

variable {opts : IdempotencyStoreOptions} {hash : String → String} {records : IdempotencyStore} {now : Nat}
  {req : IdempotentRequest}

theorem withRecord_run {key fingerprint : String} (h : (withRecord opts records now key fingerprint).1 = .run) :
    (records.lookup now key).1 = none ∧ (withRecord opts records now key fingerprint).2 =
      (records.lookup now key).2.beginRecord opts now key fingerprint := by
  unfold withRecord at h ⊢
  split
  case h_1 existing records' hlookup =>
    rw [hlookup] at h
    simp only at h
    split at h
    · cases h
    · split at h
      · cases h
      · cases h
  case h_2 records' hlookup =>
    rw [hlookup]
    exact ⟨rfl, rfl⟩

theorem withRecord_other {key fingerprint : String} (h : (withRecord opts records now key fingerprint).1 ≠ .run) :
    Swept now records (withRecord opts records now key fingerprint).2 := by
  have hswept := records.swept_lookup now key
  unfold withRecord at h ⊢
  split
  case h_1 existing records' hlookup =>
    rw [hlookup] at hswept
    split
    · exact hswept
    · split
      · exact hswept
      · exact hswept
  case h_2 records' hlookup =>
    rw [hlookup] at h
    exact absurd rfl h

theorem withRecord_replay {key fingerprint : String} {response : StoredResponse}
    (h : (withRecord opts records now key fingerprint).1 = .replay response) :
    ∃ record stored, records.get key = some record ∧ record.fingerprint = fingerprint ∧ record.state = .completed ∧
      record.response = some stored ∧ response = stored.replayed := by
  unfold withRecord at h
  split at h
  case h_1 existing records' hlookup =>
    have hget := records.lookup_some now (congrArg Prod.fst hlookup)
    split at h
    · cases h
    case isFalse hfingerprint =>
      split at h
      case h_1 stored hstate hresponse =>
        cases h
        exact ⟨existing, stored, hget, not_not.1 hfingerprint, hstate, hresponse, rfl⟩
      · cases h
  case h_2 => cases h

/-- A request is answered by itself, or from the record of its key. -/
theorem withIdempotency_cases (opts : IdempotencyStoreOptions) (hash : String → String) (records : IdempotencyStore)
    (now : Nat) (req : IdempotentRequest) :
    (∃ key ∈ req.keys.head?, withIdempotency opts hash records now req =
      withRecord opts records now (scopedKey hash req key) (fingerprint hash req)) ∨
    ((withIdempotency opts hash records now req).1 ≠ .run ∧
      (∀ response, (withIdempotency opts hash records now req).1 ≠ .replay response) ∧
      (withIdempotency opts hash records now req).2 = records) := by
  unfold withIdempotency
  split
  case h_1 => exact .inr ⟨by simp, by simp, rfl⟩
  case h_2 key hkey =>
    split
    · exact .inr ⟨by simp, by simp, rfl⟩
    · split
      · exact .inr ⟨by simp, by simp, rfl⟩
      · exact .inl ⟨key, hkey, rfl⟩

end

/-! ## What a request does -/

namespace Serving

variable {opts : IdempotencyStoreOptions} {hash : String → String} {s : Serving} {req : IdempotentRequest}

/-- A request either sweeps at most its own record, or starts a handler. -/
theorem request_cases (opts : IdempotencyStoreOptions) (hash : String → String) (s : Serving)
    (req : IdempotentRequest) :
    ((withIdempotency opts hash s.records s.now req).1 ≠ .run ∧
      ∃ records, Swept s.now s.records records ∧ s.request opts hash req = { s with records }) ∨
    ∃ key ∈ req.keys.head?, (withIdempotency opts hash s.records s.now req).1 = .run ∧
      (s.records.lookup s.now (scopedKey hash req key)).1 = none ∧
      s.request opts hash req = s.started
        ((s.records.lookup s.now (scopedKey hash req key)).2.beginRecord opts s.now (scopedKey hash req key)
          (fingerprint hash req)) (scopedKey hash req key) (fingerprint hash req) := by
  by_cases hrun : (withIdempotency opts hash s.records s.now req).1 = .run
  · right
    rcases withIdempotency_cases opts hash s.records s.now req with ⟨key, hkey, heq⟩ | ⟨hne, -⟩
    · obtain ⟨hnone, hrecords⟩ := withRecord_run (heq ▸ hrun)
      refine ⟨key, hkey, hrun, hnone, ?_⟩
      rw [Option.mem_def] at hkey
      rw [request, hrun, hkey, heq]
      simp only [hrecords]
    · exact absurd hrun hne
  · left
    have hrequest : s.request opts hash req =
        { s with records := (withIdempotency opts hash s.records s.now req).2 } := by
      rw [request]
      split
      case h_1 hreply _ => exact absurd hreply hrun
      case h_2 => rfl
    refine ⟨hrun, _, ?_, hrequest⟩
    rcases withIdempotency_cases opts hash s.records s.now req with ⟨key, -, heq⟩ | ⟨-, -, heq⟩
    · rw [heq] at hrun ⊢
      exact withRecord_other hrun
    · rw [heq]
      exact s.records.swept_refl s.now

/-! ## Handlers -/

/-- No handler was started for the key after the `j`-th. -/
def Latest (s : Serving) (key : String) (j : Nat) : Prop := ∀ i later, s.Begun key i later → i ≤ j

section

variable {records : IdempotencyStore} {key fingerprint key' : String} {i j : Nat} {run later : HandlerRun}
  {outcome : Outcome}

theorem Begun.lt (h : s.Begun key j run) : j < s.runs.length := (List.getElem?_eq_some_iff.1 h.1).1

theorem begun_started (h : (s.started records key fingerprint).Begun key' j run) :
    (∃ before, s.Begun key' j before ∧ run = before.passed s.records records) ∨
      j = s.runs.length ∧ key' = key ∧ run = ⟨key, fingerprint, s.now, none, decide (key ∉ records.keys)⟩ := by
  obtain ⟨hget, hkey⟩ := h
  unfold started at hget
  rw [List.getElem?_append] at hget
  split at hget
  · rw [List.getElem?_map, Option.map_eq_some_iff] at hget
    obtain ⟨before, hbefore, rfl⟩ := hget
    exact .inl ⟨before, ⟨hbefore, hkey⟩, rfl⟩
  case isFalse hlt =>
    rw [List.length_map] at hget hlt
    obtain ⟨hj, hrun⟩ := List.getElem?_eq_some_iff.1 hget
    simp only [List.length_singleton, Nat.lt_one_iff] at hj
    simp only [hj, List.getElem_singleton] at hrun
    subst hrun
    exact .inr ⟨by omega, hkey.symm, rfl⟩

theorem Begun.started (h : s.Begun key' j run) :
    (s.started records key fingerprint).Begun key' j (run.passed s.records records) := by
  refine ⟨?_, h.2⟩
  unfold Serving.started
  rw [List.getElem?_append_left (by rw [List.length_map]; exact h.lt), List.getElem?_map, h.1]
  rfl

theorem begun_last : (s.started records key fingerprint).Begun key s.runs.length
    ⟨key, fingerprint, s.now, none, decide (key ∉ records.keys)⟩ := by
  refine ⟨?_, rfl⟩
  unfold started
  rw [List.getElem?_append_right (by simp), List.length_map, Nat.sub_self]
  rfl

theorem latest_last : (s.started records key fingerprint).Latest key s.runs.length := by
  intro i later hlater
  rcases begun_started hlater with ⟨before, hbegun, -⟩ | ⟨rfl, -, -⟩
  · exact Nat.le_of_lt hbegun.lt
  · exact Nat.le_refl _

theorem Latest.started (h : s.Latest key' j) (hne : key' ≠ key) :
    (s.started records key fingerprint).Latest key' j := by
  intro i later hlater
  rcases begun_started hlater with ⟨before, hbefore, -⟩ | ⟨-, hkey, -⟩
  · exact h i before hbefore
  · exact absurd hkey hne

theorem begun_ends (hj : s.Begun key j run) (h : (s.ends opts j run outcome).Begun key' i later) :
    i = j ∧ key' = key ∧ later = { run with ended := some outcome } ∨ i ≠ j ∧ s.Begun key' i later := by
  obtain ⟨hget, hkey⟩ := h
  unfold ends at hget
  rw [List.getElem?_set] at hget
  split at hget
  case isTrue hij =>
    rw [if_pos hj.lt] at hget
    cases hget
    exact .inl ⟨hij.symm, hkey.symm.trans hj.2, rfl⟩
  case isFalse hij => exact .inr ⟨fun h => hij h.symm, hget, hkey⟩

theorem Begun.ends (opts : IdempotencyStoreOptions) (outcome : Outcome) (hj : s.Begun key j run)
    (h : s.Begun key' i later) :
    ∃ run', (s.ends opts j run outcome).Begun key' i run' ∧ run'.fingerprint = later.fingerprint ∧
      (i ≠ j → run' = later) := by
  by_cases hij : i = j
  · subst hij
    have hsame := hj.1.symm.trans h.1
    cases hsame
    refine ⟨{ run with ended := some outcome }, ⟨?_, h.2⟩, rfl, fun hne => absurd rfl hne⟩
    rw [Serving.ends, List.getElem?_set_self hj.lt]
  · refine ⟨later, ⟨?_, h.2⟩, rfl, fun _ => rfl⟩
    rw [Serving.ends, List.getElem?_set_ne (Ne.symm hij), h.1]

end

/-! ## The invariant -/

/-- A handler of the key and the fingerprint has ended with the response. -/
def Produced (opts : IdempotencyStoreOptions) (s : Serving) (key fingerprint : String) (stored : StoredResponse) :
    Prop :=
  ∃ j run outcome, s.Begun key j run ∧ run.fingerprint = fingerprint ∧ run.ended = some outcome ∧
    captureResponse opts.maxBodyBytes outcome = some stored

/-- A handler that has not ended, was not evicted and whose record has not expired. -/
structure Holding (opts : IdempotencyStoreOptions) (s : Serving) (run : HandlerRun) : Prop where
  going : run.ended = none
  kept : run.evicted = false
  unexpired : s.now < run.begunAt + opts.inFlightTtlMs

structure Sound (opts : IdempotencyStoreOptions) (s : Serving) : Prop where
  owned : ∀ key record, s.records.get key = some record →
    ∃ j run, s.Begun key j run ∧ s.Latest key j ∧ record.fingerprint = run.fingerprint
  answered : ∀ key record stored, s.records.get key = some record → record.state = .completed →
    record.response = some stored → s.Produced opts key record.fingerprint stored
  holding : ∀ key j run, s.Begun key j run → s.Holding opts run → s.Latest key j ∧
    ∃ record, s.records.get key = some record ∧ record.state = .inFlight ∧
      record.expiresAt = run.begunAt + opts.inFlightTtlMs

theorem sound_start (now : Nat) : (start now).Sound opts where
  owned _ _ h := by cases h
  answered _ _ _ h := by cases h
  holding _ _ _ h := by cases h.1

/-- Records may expire and be swept. -/
theorem Sound.swept (hs : s.Sound opts) {now : Nat} {records : IdempotencyStore} (hnow : s.now ≤ now)
    (hswept : Swept now s.records records) : Sound opts { s with now, records } where
  owned key record h := hs.owned key record (hswept.kept key record h)
  answered key record stored h := hs.answered key record stored (hswept.kept key record h)
  holding key j run hbegun hholding := by
    have hunexpired : now < run.begunAt + opts.inFlightTtlMs := hholding.unexpired
    obtain ⟨hlatest, record, hrecord, hstate, hexpires⟩ :=
      hs.holding key j run hbegun ⟨hholding.going, hholding.kept, by omega⟩
    exact ⟨hlatest, record, hswept.unexpired key record hrecord (by omega), hstate, hexpires⟩

/-- Where no record is found, no handler holds one. -/
theorem Sound.single (hs : s.Sound opts) {key : String} (hnone : (s.records.lookup s.now key).1 = none) {j : Nat}
    {run : HandlerRun} (hbegun : s.Begun key j run) : ¬ s.Holding opts run := by
  intro hholding
  obtain ⟨-, record, hrecord, -, hexpires⟩ := hs.holding key j run hbegun hholding
  have hexpired := (s.records.lookup_none s.now hnone).2 record hrecord
  have hunexpired := hholding.unexpired
  omega

theorem Sound.started (hs : s.Sound opts) {key fingerprint : String}
    (hnone : (s.records.lookup s.now key).1 = none) :
    Sound opts (s.started ((s.records.lookup s.now key).2.beginRecord opts s.now key fingerprint) key fingerprint) where
  owned key' record h := by
    -- the new record is that of the new handler, the others are from before
    rcases IdempotencyStore.get_beginRecord _ _ h with ⟨rfl, rfl⟩ | ⟨hne, hbefore⟩
    · exact ⟨_, _, begun_last, latest_last, rfl⟩
    · obtain ⟨j, run, hbegun, hlatest, hfingerprint⟩ :=
        hs.owned key' record ((s.records.swept_lookup s.now key).kept key' record hbefore)
      exact ⟨j, _, hbegun.started, hlatest.started hne, hfingerprint⟩
  answered key' record stored h hstate hresponse := by
    rcases IdempotencyStore.get_beginRecord _ _ h with ⟨rfl, rfl⟩ | ⟨hne, hbefore⟩
    · cases hstate
    · obtain ⟨j, run, outcome, hbegun, hrest⟩ := hs.answered key' record stored
        ((s.records.swept_lookup s.now key).kept key' record hbefore) hstate hresponse
      exact ⟨j, _, outcome, hbegun.started, hrest⟩
  holding key' j run hbegun hholding := by
    have hfound := @IdempotencyStore.get_beginRecord (s.records.lookup s.now key).2 s.now opts key fingerprint
    generalize (s.records.lookup s.now key).2.beginRecord opts s.now key fingerprint = records' at *
    rcases begun_started hbegun with ⟨before, hbefore, rfl⟩ | ⟨rfl, rfl, rfl⟩
    · obtain ⟨hkept, hstored⟩ : before.evicted = false ∧ (key' ∈ s.records.keys → key' ∈ records'.keys) := by
        simpa [HandlerRun.passed, hbefore.2] using hholding.kept
      have hheld : s.Holding opts before := ⟨hholding.going, hkept, hholding.unexpired⟩
      obtain ⟨hlatest, record, hrecord, hstate, hexpires⟩ := hs.holding key' j before hbefore hheld
      have hne : key' ≠ key := fun h => hs.single hnone (h ▸ hbefore) hheld
      refine ⟨hlatest.started hne, record, ?_, hstate, hexpires⟩
      -- the record was not dropped, so it is the one from before
      obtain ⟨record', hrecord'⟩ := OrderedMap.mem_keys.1 (hstored (OrderedMap.mem_keys.2 ⟨record, hrecord⟩))
      rcases hfound hrecord' with ⟨hkey, -⟩ | ⟨-, hget⟩
      · exact absurd hkey hne
      · have hsame := (s.records.swept_lookup s.now key).kept key' record' hget
        rw [hrecord] at hsame
        rw [hsame]
        exact hrecord'
    · refine ⟨latest_last, ?_⟩
      obtain ⟨record', hrecord'⟩ := OrderedMap.mem_keys.1 (not_not.1 (of_decide_eq_false hholding.kept))
      rcases hfound hrecord' with ⟨-, rfl⟩ | ⟨hne, -⟩
      · exact ⟨_, hrecord', rfl, rfl⟩
      · exact absurd rfl hne

/-! ## The end of a handler -/

theorem get_onFinish_of_ne {records : IdempotencyStore} {now : Nat} {key key' : String}
    {captured : Option StoredResponse} (hne : key' ≠ key) :
    (onFinish opts records now key captured).get key' = records.get key' := by
  unfold onFinish IdempotencyStore.release IdempotencyStore.complete
  split
  · rw [OrderedMap.get_erase, if_neg hne]
  · split
    · rw [OrderedMap.get_erase, if_neg hne]
    · split
      · rfl
      · rw [OrderedMap.get_set_of_ne _ _ hne]

/-- What is stored under the key afterwards is the record of before, completed with the response. -/
theorem get_onFinish {records : IdempotencyStore} {now : Nat} {key : String} {captured : Option StoredResponse}
    {record : IdempotencyRecord} (h : (onFinish opts records now key captured).get key = some record) :
    ∃ before response, records.get key = some before ∧ captured = some response ∧ response.statusCode < 500 ∧
      record = { before with state := .completed, response := some response, expiresAt := now + opts.ttlMs } := by
  unfold onFinish IdempotencyStore.release IdempotencyStore.complete at h
  split at h
  · simp [OrderedMap.get_erase] at h
  case h_2 response =>
    split at h
    · simp [OrderedMap.get_erase] at h
    case isFalse hstatus =>
      cases hget : records.get key with
      | none => simp [hget] at h
      | some before =>
        simp only [hget, OrderedMap.get_set_self, Option.some.injEq] at h
        exact ⟨before, response, rfl, rfl, by omega, h.symm⟩

/-- Completing a completed record again with the same response at the same moment leaves it. -/
theorem get_onFinish_recompleted {records : IdempotencyStore} {now : Nat} {key : String} {outcome : Outcome}
    {record : IdempotencyRecord} (hget : records.get key = some record) (h : Recompleted opts now outcome record) :
    (onFinish opts records now key (captureResponse opts.maxBodyBytes outcome)).get key = some record := by
  obtain ⟨response, hcaptured, hstatus, hrecord⟩ := h
  unfold onFinish
  rw [hcaptured]
  simp only
  rw [if_neg (Nat.not_le.2 hstatus), IdempotencyStore.complete, hget]
  simp only [OrderedMap.get_set_self]
  rw [← hrecord]

section

variable {key : String} {j : Nat} {run : HandlerRun} {outcome : Outcome}

theorem Latest.ends (h : s.Latest key j) {i : Nat} {run : HandlerRun} {key' : String} (hi : s.Begun key' i run) :
    (s.ends opts i run outcome).Latest key j := by
  intro i' later hlater
  rcases begun_ends hi hlater with ⟨rfl, rfl, -⟩ | ⟨-, hbegun⟩
  · exact h i' run hi
  · exact h i' later hbegun

theorem Produced.ends {key' fingerprint : String} {stored : StoredResponse} (hj : s.Begun key j run)
    (hgoing : run.ended = none) (h : s.Produced opts key' fingerprint stored) :
    (s.ends opts j run outcome).Produced opts key' fingerprint stored := by
  obtain ⟨i, run', outcome', hbegun, hfingerprint, hended, hcaptured⟩ := h
  have hij : i ≠ j := by
    rintro rfl
    have hsame := hj.1.symm.trans hbegun.1
    cases hsame
    rw [hgoing] at hended
    cases hended
  obtain ⟨run'', hbegun', -, hsame⟩ := hj.ends opts outcome hbegun
  rw [hsame hij] at hbegun'
  exact ⟨i, run', outcome', hbegun', hfingerprint, hended, hcaptured⟩

theorem Sound.ends (hs : s.Sound opts) (hj : s.Begun key j run) (hgoing : run.ended = none)
    (hok : Undisturbed opts s (.ends j outcome)) : (s.ends opts j run outcome).Sound opts where
  owned key' record h := by
    -- completing a record leaves it its fingerprint
    have hbefore : ∃ before, s.records.get key' = some before ∧ record.fingerprint = before.fingerprint := by
      by_cases hne : key' = run.key
      · subst hne
        obtain ⟨before, response, hget, -, -, rfl⟩ := get_onFinish h
        exact ⟨before, hget, rfl⟩
      · exact ⟨record, (get_onFinish_of_ne hne).symm.trans h, rfl⟩
    obtain ⟨before, hget, hsame⟩ := hbefore
    obtain ⟨i, run', hbegun, hlatest, hfingerprint⟩ := hs.owned key' before hget
    obtain ⟨run'', hbegun', hfingerprint', -⟩ := hj.ends opts outcome hbegun
    exact ⟨i, run'', hbegun', hlatest.ends hj, hsame.trans (hfingerprint.trans hfingerprint'.symm)⟩
  answered key' record stored h hstate hresponse := by
    by_cases hne : key' = run.key
    · rw [hj.2] at hne
      subst hne
      have hget' := h
      rw [show (s.ends opts j run outcome).records = onFinish opts s.records s.now run.key _ from rfl, hj.2] at hget'
      obtain ⟨before, response, hget, hcaptured, -, rfl⟩ := get_onFinish hget'
      cases hresponse
      obtain ⟨i, run', hbegun, hlatest, hfingerprint⟩ := hs.owned key' before hget
      rcases Nat.eq_or_lt_of_le (hlatest j run hj) with rfl | hlt
      · have hsame := hj.1.symm.trans hbegun.1
        cases hsame
        refine ⟨j, { run with ended := some outcome }, outcome, ⟨?_, hj.2⟩, hfingerprint.symm, rfl, hcaptured⟩
        rw [Serving.ends, List.getElem?_set_self hj.lt]
      -- a later handler's record is only completed again with what it holds
      · obtain ⟨response, hcaptured', -, hbefore⟩ := hok key' run i run' before hj hbegun hlt hget
        rw [hcaptured] at hcaptured'
        cases hcaptured'
        exact (hs.answered key' before stored hget (by rw [hbefore]) (by rw [hbefore])).ends hj hgoing
    · exact (hs.answered key' record stored ((get_onFinish_of_ne hne).symm.trans h) hstate hresponse).ends hj hgoing
  holding key' i later hbegun hholding := by
    rcases begun_ends hj hbegun with ⟨rfl, -, rfl⟩ | ⟨hij, hbefore⟩
    · cases hholding.going
    · obtain ⟨hlatest, record, hrecord, hstate, hexpires⟩ :=
        hs.holding key' i later hbefore ⟨hholding.going, hholding.kept, hholding.unexpired⟩
      refine ⟨hlatest.ends hj, record, ?_, hstate, hexpires⟩
      -- a later handler's record is in flight, so it was not completed with this response
      have hne : key' ≠ run.key := by
        intro hkey
        rw [hj.2] at hkey
        subst hkey
        have hlt : j < i := Nat.lt_of_le_of_ne (hlatest j run hj) (Ne.symm hij)
        obtain ⟨response, -, -, hcompleted⟩ := hok key' run i later record hj hbefore hlt hrecord
        rw [hcompleted] at hstate
        cases hstate
      exact (get_onFinish_of_ne hne).trans hrecord

end

/-! ## Every step -/

theorem Sound.request (hs : s.Sound opts) :
    (s.request opts hash req).Sound opts ∧
      StepIdempotent opts hash s (.request req (withIdempotency opts hash s.records s.now req).1)
        (s.request opts hash req) := by
  refine ⟨?_, ?_, fun _ _ h => (by cases h), ?_⟩
  · rcases request_cases opts hash s req with ⟨-, records, hswept, heq⟩ | ⟨key, -, -, hnone, heq⟩
    · rw [heq]
      exact hs.swept (Nat.le_refl _) hswept
    · rw [heq]
      exact hs.started hnone
  · intro req' key response heq hkey
    obtain ⟨rfl, hreply⟩ := ServingMove.request.inj heq
    rcases withIdempotency_cases opts hash s.records s.now req with ⟨key', hkey', hw⟩ | ⟨-, hnot, -⟩
    · obtain rfl := Option.mem_unique hkey hkey'
      rw [hw] at hreply
      obtain ⟨record, stored, hget, hfingerprint, hstate, hresponse, rfl⟩ := withRecord_replay hreply
      obtain ⟨j, run, outcome, hbegun, hsame, hended, hcaptured⟩ := hs.answered _ record stored hget hstate hresponse
      exact ⟨j, run, outcome, hbegun, hsame.trans hfingerprint, hended, stored, hcaptured, rfl⟩
    · exact absurd hreply (hnot response)
  · intro req' key heq hkey
    obtain ⟨rfl, hreply⟩ := ServingMove.request.inj heq
    rcases request_cases opts hash s req with ⟨hnot, -⟩ | ⟨key', hkey', -, hnone, -⟩
    · exact absurd hreply hnot
    · obtain rfl := Option.mem_unique hkey hkey'
      refine ⟨(s.records.lookup_none s.now hnone).2, ?_⟩
      intro j run hbegun hgoing hkept
      by_contra hlt
      exact hs.single hnone hbegun ⟨hgoing, hkept, Nat.not_le.1 hlt⟩

theorem own_ends {j : Nat} {run : HandlerRun} {outcome : Outcome} (hget : s.runs[j]? = some run) :
    StepIdempotent opts hash s (.ends j outcome) (s.ends opts j run outcome) ↔
      Undisturbed opts s (.ends j outcome) := by
  constructor
  · intro hstep key run' i later record hj hi hlt hrecord
    have hsame := hget.symm.trans hj.1
    cases hsame
    have hafter := hstep.own j outcome rfl key i later record hi hlt hrecord
    rw [show (s.ends opts j run outcome).records = onFinish opts s.records s.now run.key _ from rfl, hj.2] at hafter
    obtain ⟨before, response, hbefore, hcaptured, hstatus, heq⟩ := get_onFinish hafter
    rw [hrecord] at hbefore
    cases hbefore
    exact ⟨response, hcaptured, hstatus, heq⟩
  · intro hok
    refine ⟨fun _ _ _ h => (by cases h), ?_, fun _ _ h => (by cases h)⟩
    intro j' outcome' heq key i later record hi hlt hrecord
    cases heq
    by_cases hne : key = run.key
    · subst hne
      exact get_onFinish_recompleted hrecord (hok run.key run i later record ⟨hget, rfl⟩ hi hlt hrecord)
    · exact (get_onFinish_of_ne hne).trans hrecord

end Serving

/-- Nothing is claimed of time and sweeps. -/
theorem StepIdempotent.idle {opts : IdempotencyStoreOptions} {hash : String → String} {t s : Serving}
    {l : ServingMove}
    (hrequest : ∀ req reply, l ≠ .request req reply) (hends : ∀ j outcome, l ≠ .ends j outcome) :
    StepIdempotent opts hash t l s :=
  ⟨fun _ _ _ h => absurd h (hrequest _ _), fun _ _ h => absurd h (hends _ _), fun _ _ h => absurd h (hrequest _ _)⟩

/-- All steps keep the three parts exactly when no handler ends on a later one's record. -/
theorem idempotent_iff (opts : IdempotencyStoreOptions) (hash : String → String) {now : Nat} {h s}
    (hr : Run (Serving.Step opts hash) (.start now) h s) :
    Always (Idempotent opts hash) h s ↔ Throughout (fun _ => Undisturbed opts) h := by
  refine Run.always_iff_of_inv (I := fun h s => s.Sound opts ∧ Idempotent opts hash h s)
    ⟨Serving.sound_start now, trivial⟩ (fun hi => hi.2) ?_ ?_ hr
  · intro h s l s' _ hi hst hok
    cases hst with
    | request => exact hi.1.request
    | ends hget hgoing => exact ⟨hi.1.ends ⟨hget, rfl⟩ hgoing hok, (Serving.own_ends hget).2 hok⟩
    | tick hle =>
      exact ⟨hi.1.swept hle (s.records.swept_refl _), .idle (fun _ _ h => (by cases h)) fun _ _ h => (by cases h)⟩
    | cleanup =>
      exact ⟨hi.1.swept (Nat.le_refl _) (s.records.swept_cleanup s.now),
        .idle (fun _ _ h => (by cases h)) fun _ _ h => (by cases h)⟩
  · intro h s l s' _ hi hst hstep
    cases hst with
    | request => trivial
    | ends hget hgoing => exact (Serving.own_ends hget).1 hstep
    | tick hle => trivial
    | cleanup => trivial

/-! ## A retry, and a handler that is overtaken -/

def samplePost (body : String) : IdempotentRequest := ⟨"POST", ["k"], "", "/loans", "", body⟩

/-- The handler of a request to begin with. -/
def sampleHandler (body : String) : HandlerRun :=
  ⟨scopedKey id (samplePost body) "k", fingerprint id (samplePost body), 0, none, false⟩

def sampleOk : Outcome := .finish ⟨200, [], [], [[111, 107]]⟩

def firstStarted : Serving := (Serving.start 0).request {} id (samplePost "a")

def firstEnded : Serving := firstStarted.ends {} 0 (sampleHandler "a") sampleOk

theorem first_step : Serving.Step {} id (.start 0) (.request (samplePost "a") .run) firstStarted :=
  (by decide +kernel : (withIdempotency {} id .empty 0 (samplePost "a")).1 = .run) ▸ .request

theorem idempotent_retry :
    Always (Idempotent {} id)
      [(firstEnded, .request (samplePost "a") (withIdempotency {} id firstEnded.records 0 (samplePost "a")).1),
        (firstStarted, .ends 0 sampleOk), (.start 0, .request (samplePost "a") .run)]
      (firstEnded.request {} id (samplePost "a")) ∧
    (withIdempotency {} id firstEnded.records 0 (samplePost "a")).1 =
      .replay ⟨200, .set .empty "idempotent-replayed" "true", [111, 107]⟩ := by
  refine ⟨?_, by decide +kernel⟩
  refine (idempotent_iff {} id (((Run.nil.snoc first_step).snoc (.ends (by decide +kernel) rfl)).snoc .request)).2 ?_
  refine ⟨⟨⟨trivial, trivial⟩, ?_⟩, trivial⟩
  intro key run i later record hj hi hlt
  have hlength : firstStarted.runs.length = 1 := by decide +kernel
  have hlater := hi.lt
  omega

/-- The first record has expired and its key is used for another request. -/
def secondStarted : Serving := ({ firstStarted with now := 60000 } : Serving).request {} id (samplePost "b")

/-- The first handler ends then. -/
def overtaken : Serving := secondStarted.ends {} 0 (sampleHandler "a") sampleOk

theorem replay_mixed :
    ¬ ∀ opts hash now h s, Run (Serving.Step opts hash) (.start now) h s → Idempotent opts hash h s := by
  intro hclaim
  have hr : Run (Serving.Step {} id) (.start 0) _ overtaken :=
    (((Run.nil.snoc first_step).snoc (.tick (Nat.zero_le 60000))).snoc
      (@Serving.Step.request {} id { firstStarted with now := 60000 } (samplePost "b"))).snoc
      (@Serving.Step.ends {} id secondStarted 0 (sampleHandler "a") sampleOk (by decide +kernel) rfl)
  have hstep : StepIdempotent {} id overtaken _ _ :=
    hclaim {} id 0 _ _ (hr.snoc (@Serving.Step.request {} id overtaken (samplePost "b")))
  obtain ⟨j, run, outcome, hbegun, hfingerprint, hended, -⟩ := hstep.replayed (samplePost "b") "k"
    ⟨200, .set .empty "idempotent-replayed" "true", [111, 107]⟩ (congrArg _ (by decide +kernel)) rfl
  have hnone : ∀ run ∈ overtaken.runs, run.fingerprint = fingerprint id (samplePost "b") → run.ended = none := by
    decide +kernel
  rw [hnone run (List.mem_of_getElem? hbegun.1) hfingerprint] at hended
  cases hended

end QuorumCredit.Server
