import QuorumCredit.CacheEffects
import QuorumCredit.Host.Run
import Mathlib.Logic.Function.Basic
/-!
# Invalidation of the query cache

Calls and the ends of queries in any order. The index of tags is exact in every
run. The rest holds as long as no invalidation concerns a query that is in flight,
the entry under the empty key is not the one to be evicted, and no stale entry is
asked for while it is revalidated.
-/

open Function

namespace QuorumCredit.Server

open Host

variable {δ : Type}

/-! ## Runs -/

inductive QueryPhase where
  | running
  | finishing
  | done
deriving DecidableEq, Repr

/-- A query that `wrap` started; `invalidated` if its key was since. -/
structure Query where
  key : String
  options : CacheSetOptions
  background : Bool
  phase : QueryPhase
  invalidated : Bool
deriving DecidableEq

/-- A cache, the queries in the order in which they were started, and by key the query whose result
was stored last, if it was one. -/
structure Caching (δ : Type) where
  now : Int
  cache : SmartQueryCache δ
  queries : List Query
  sources : String → Option Nat

inductive CacheMove (δ : Type) where
  | get (key : String) (data : Option δ)
  | set (key : String) (data : Option δ) (options : CacheSetOptions)
  | wrap (key : String) (options : CacheWrapOptions) (result : WrapResult δ)
  | settle (j : Nat) (outcome : Option (Option δ))
  | finish (j : Nat)
  | invalidateKey (key : String)
  | invalidateTag (tag : String)
  | invalidatePattern (pattern : CachePattern)
  | clear
  | tick

namespace SmartQueryCache

/-- The call invalidates the query's key: by itself, or by a tag of the query or of the stored entry. -/
def concerns (c : SmartQueryCache δ) : CacheMove δ → Query → Bool
  | .invalidateKey key, q => q.key = key
  | .invalidateTag tag, q => tag ∈ q.options.tags ∨ tag ∈ c.tagsAt q.key
  | .invalidatePattern pattern, q => pattern.test q.key
  | .clear, _ => true
  | _, _ => false

end SmartQueryCache

def Query.started (key : String) (options : CacheSetOptions) (start : QueryStart) : Query where
  key := key
  options := options
  background := start = .background
  phase := if start = .thrown then .done else .running
  invalidated := false

section

variable (config : SmartQueryCacheConfig)

def Caching.start (now : Int) : Caching δ := ⟨now, .empty, [], fun _ => none⟩

def Caching.wrap (s : Caching δ) (key : String) (options : CacheWrapOptions) (throws : Bool) :
    WrapResult δ × SmartQueryCache δ × Option QueryStart :=
  s.cache.wrap s.now key options s.queries.length throws

def Caching.got (s : Caching δ) (key : String) : Caching δ := { s with cache := (s.cache.getEntry s.now key).2 }

def Caching.stored (s : Caching δ) (key : String) (data : Option δ) (options : CacheSetOptions) (source : Option Nat) :
    Caching δ :=
  { s with cache := s.cache.setEntry config s.now key data options, sources := update s.sources key source }

def Caching.wrapped (s : Caching δ) (key : String) (options : CacheWrapOptions) (throws : Bool) : Caching δ where
  now := s.now
  cache := (s.wrap key options throws).2.1
  queries := s.queries ++ ((s.wrap key options throws).2.2.map (Query.started key options.toCacheSetOptions)).toList
  sources := s.sources

/-- The query has a result or has failed; in the background, `finally` comes later. -/
def Caching.settle (s : Caching δ) (j : Nat) (q : Query) (outcome : Option (Option δ)) : Caching δ :=
  let sources := if outcome.isSome then update s.sources q.key (some j) else s.sources
  if q.background then
    { now := s.now, cache := s.cache.settleBackground config s.now q.key q.options outcome
      queries := s.queries.set j { q with phase := .finishing }, sources }
  else
    { now := s.now, cache := s.cache.settleForeground config s.now q.key q.options outcome
      queries := s.queries.set j { q with phase := .done }, sources }

def Caching.finish (s : Caching δ) (j : Nat) (q : Query) : Caching δ :=
  { s with cache := s.cache.finallyBackground q.key, queries := s.queries.set j { q with phase := .done } }

def Caching.invalidate (s : Caching δ) (l : CacheMove δ) (cache : SmartQueryCache δ) : Caching δ where
  now := s.now
  cache := cache
  queries := s.queries.map fun q => { q with invalidated := q.invalidated || s.cache.concerns l q }
  sources := s.sources

inductive Caching.Step : Caching δ → CacheMove δ → Caching δ → Prop
  | get {s key} : Step s (.get key (s.cache.getEntry s.now key).1) (s.got key)
  | set {s key data options} : Step s (.set key data options) (s.stored config key data options none)
  | wrap {s key options throws} :
      Step s (.wrap key options (s.wrap key options throws).1) (s.wrapped key options throws)
  | settle {s j q outcome} : s.queries[j]? = some q → q.phase = .running →
      Step s (.settle j outcome) (s.settle config j q outcome)
  | finish {s j q} : s.queries[j]? = some q → q.phase = .finishing → Step s (.finish j) (s.finish j q)
  | invalidateKey {s key} : Step s (.invalidateKey key)
      (s.invalidate (.invalidateKey key) (s.cache.invalidateKey key).1)
  | invalidateTag {s tag} : Step s (.invalidateTag tag)
      (s.invalidate (.invalidateTag tag) (s.cache.invalidateTag tag).1)
  | invalidatePattern {s pattern} : Step s (.invalidatePattern pattern)
      (s.invalidate (.invalidatePattern pattern) (s.cache.invalidatePattern pattern).1)
  | clear {s} : Step s .clear (s.invalidate .clear s.cache.clear)
  | tick {s now} : s.now ≤ now → Step s .tick { s with now }

/-! ## What is claimed -/

structure CacheSound (s : Caching δ) : Prop where
  indexed : Indexed s.cache
  size : s.cache.entries.size ≤ config.maxEntries
  single : ∀ (i j : Nat) (q r : Query), s.queries[i]? = some q → s.queries[j]? = some r → q.phase ≠ .done →
    r.phase ≠ .done → q.key = r.key → i = j

/-- No value of a query that was invalidated is returned, and a stale one is where it is asked for. -/
structure StepFresh (t : Caching δ) (l : CacheMove δ) : Prop where
  fresh : ∀ key data, (l = .get key (some data) ∨ ∃ options, l = .wrap key options (.value (some data))) →
    ∀ j q, t.sources key = some j → t.queries[j]? = some q → q.invalidated = false
  stale : ∀ key options result entry, l = .wrap key options result → options.staleWhileRevalidate = true →
    t.cache.entries.get key = some entry → entry.expiresAt < t.now → result = .value entry.data

def Respects : List (Caching δ × CacheMove δ) → Caching δ → Prop
  | [], s => CacheSound config s
  | (t, l) :: _, s => CacheSound config s ∧ StepFresh t l

/-- No invalidation concerns a query in flight, an entry is added where there is room for it, and
no stale entry is asked for. -/
def Careful (s : Caching δ) : CacheMove δ → Prop
  | .set key _ _ => RoomFor config s.cache key
  | .settle j outcome => ∀ q, s.queries[j]? = some q → outcome.isSome = true → RoomFor config s.cache q.key
  | .wrap key options _ => options.staleWhileRevalidate = true →
      ∀ entry, s.cache.entries.get key = some entry → s.now ≤ entry.expiresAt
  | l => ∀ q ∈ s.queries, q.phase ≠ .done → s.cache.concerns l q = false

end

/-! ## The index in every run -/

theorem indexed_empty : Indexed (.empty : SmartQueryCache δ) := by
  intro tag key
  refine iff_of_false List.not_mem_nil ?_
  rintro ⟨entry, hentry, -⟩
  cases hentry

theorem Caching.indexed_step {config : SmartQueryCacheConfig} {s s' : Caching δ} {l : CacheMove δ}
    (hst : Step config s l s') (hi : Indexed s.cache) : Indexed s'.cache := by
  cases hst with
  | @get key => exact (s.cache.getEntry_reduced key s.now).indexed hi
  | @set key data options => exact s.cache.setEntry_indexed key config s.now data options hi
  | @wrap key options throws =>
    have hgot := (s.cache.getEntry_reduced key s.now).indexed hi
    rcases (s.cache.wrap_cases key s.now options s.queries.length throws).1 with heq | ⟨-, start, heq⟩
    · rw [wrapped, Caching.wrap, heq]
      exact hgot
    · rw [wrapped, Caching.wrap, heq]
      exact hgot
  | @settle j q outcome hq hphase =>
    cases outcome with
    | none =>
      rw [settle]
      split
      · exact hi
      · exact hi
    | some data =>
      have hset := s.cache.setEntry_indexed q.key config s.now data q.options hi
      rw [settle]
      split
      · exact hset
      · exact hset
  | finish => exact hi
  | @invalidateKey key => exact (s.cache.invalidateKey_reduced key).1.indexed hi
  | @invalidateTag tag => exact (s.cache.invalidateTag_reduced hi tag).1.indexed hi
  | @invalidatePattern pattern => exact (s.cache.invalidatePattern_reduced pattern).1.indexed hi
  | clear => exact indexed_empty
  | tick => exact hi

/-- The index is exact whatever happens. -/
theorem indexed_run {config : SmartQueryCacheConfig} {now : Int} {h} {s : Caching δ}
    (hr : Run (Caching.Step config) (.start now) h s) : Indexed s.cache :=
  hr.always (fun s => Indexed s.cache) indexed_empty fun _ _ _ hi hst => Caching.indexed_step hst hi

/-! ## The invariant -/

namespace Caching

variable {config : SmartQueryCacheConfig} {s : Caching δ}

/-- Every query that is not over is the one in flight for its key, and every entry that is a
query's result is that of one whose key was not invalidated since. -/
structure Kept (config : SmartQueryCacheConfig) (s : Caching δ) : Prop where
  size : s.cache.entries.size ≤ config.maxEntries
  inFlight : ∀ (j : Nat) (q : Query), s.queries[j]? = some q → q.phase ≠ .done →
    s.cache.inFlightQueries.get q.key = some j ∧ q.invalidated = false
  sourced : ∀ key entry j, s.cache.entries.get key = some entry → s.sources key = some j →
    ∃ q, s.queries[j]? = some q ∧ q.key = key ∧ q.invalidated = false ∧ entry.tags = q.options.tags.eraseDups

theorem kept_start (now : Int) : (start now : Caching δ).Kept config where
  size := Nat.zero_le _
  inFlight _ _ h := by cases h
  sourced _ _ _ h := by cases h

namespace Kept

variable (hs : s.Kept config)
include hs

theorem sound (hi : Indexed s.cache) : CacheSound config s where
  indexed := hi
  size := hs.size
  single i j q r hi hj hq hr hkey := by
    have hfirst := (hs.inFlight i q hi hq).1
    rw [hkey, (hs.inFlight j r hj hr).1] at hfirst
    exact (Option.some.inj hfirst).symm

/-- What is stored under a key is not from an invalidated query. -/
theorem fresh {key : String} {entry : CacheEntry δ} (hentry : s.cache.entries.get key = some entry) {j : Nat}
    {q : Query} (hsource : s.sources key = some j) (hq : s.queries[j]? = some q) : q.invalidated = false := by
  obtain ⟨q', hq', -, hvalid, -⟩ := hs.sourced key entry j hentry hsource
  rw [hq] at hq'
  cases hq'
  exact hvalid

variable {c : SmartQueryCache δ}

theorem reduced {now : Int} (h : Reduced s.cache c) :
    Kept config { s with now, cache := c } where
  size := Nat.le_trans h.size hs.size
  inFlight j q hj hphase := by
    rw [h.inFlight]
    exact hs.inFlight j q hj hphase
  sourced key entry' j hentry' hsource := by
    obtain ⟨entry, hentry, htags⟩ := h.kept key entry' hentry'
    rw [htags]
    exact hs.sourced key entry j hentry hsource

/-- An entry is stored, of no query or of one that is not invalidated. -/
theorem stored (hmax : 1 ≤ config.maxEntries) {key : String} (hroom : RoomFor config s.cache key) (data : Option δ)
    (options : CacheSetOptions) (source : Option Nat)
    (hsource : ∀ j, source = some j → ∃ q, s.queries[j]? = some q ∧ q.key = key ∧ q.invalidated = false ∧
      q.options = options) :
    (s.stored config key data options source).Kept config where
  size := s.cache.setEntry_size key config s.now data options hmax hs.size hroom
  inFlight j q hj hphase := by
    rw [Caching.stored, SmartQueryCache.setEntry_inFlight]
    exact hs.inFlight j q hj hphase
  sourced key' entry' j hentry' hj := by
    rw [Caching.stored, SmartQueryCache.setEntry_get] at hentry'
    split at hentry'
    case isTrue hkey =>
      subst hkey
      cases hentry'
      simp only [Caching.stored, update_self] at hj
      obtain ⟨q, hq, hkey, hvalid, rfl⟩ := hsource j hj
      exact ⟨q, hq, hkey, hvalid, rfl⟩
    case isFalse hkey =>
      obtain ⟨entry, hentry, htags⟩ := (s.cache.makeRoom_reduced key config.maxEntries).1.kept key' entry' hentry'
      simp only [Caching.stored, update_of_ne hkey] at hj
      rw [htags]
      exact hs.sourced key' entry j hentry hj

/-- A query is started for a key that has none in flight. -/
theorem started {key : String} (hnone : s.cache.inFlightQueries.get key = none) (options : CacheSetOptions)
    (start : QueryStart) : Kept config
      { s with cache := { s.cache with inFlightQueries := s.cache.inFlightQueries.set key s.queries.length }
               queries := s.queries ++ [Query.started key options start] } where
  size := hs.size
  inFlight j q hj hphase := by
    rw [List.getElem?_append] at hj
    split at hj
    -- the key was free
    · obtain ⟨hflight, hvalid⟩ := hs.inFlight j q hj hphase
      have hne : q.key ≠ key := by
        intro hkey
        rw [hkey, hnone] at hflight
        cases hflight
      exact ⟨(OrderedMap.get_set_of_ne _ _ hne).trans hflight, hvalid⟩
    case isFalse hlt =>
      obtain ⟨hlast, hq⟩ := List.getElem?_eq_some_iff.1 hj
      simp only [List.length_singleton, Nat.lt_one_iff] at hlast
      simp only [hlast, List.getElem_singleton] at hq
      subst hq
      obtain rfl : j = s.queries.length := by omega
      exact ⟨OrderedMap.get_set_self _ _ _, rfl⟩
  sourced key' entry j hentry hsource := by
    obtain ⟨q, hq, hrest⟩ := hs.sourced key' entry j hentry hsource
    have hlt := (List.getElem?_eq_some_iff.1 hq).1
    exact ⟨q, by rw [List.getElem?_append_left hlt, hq], hrest⟩

/-- The phase of a query that is not over goes on; if it is over then, it is no longer in flight. -/
theorem phased {j : Nat} {q : Query} (hq : s.queries[j]? = some q) (hgoing : q.phase ≠ .done) (phase : QueryPhase)
    (hentries : c.entries = s.cache.entries)
    (hflight : c.inFlightQueries = if phase = .done then s.cache.inFlightQueries.erase q.key else s.cache.inFlightQueries) :
    Kept config { s with cache := c, queries := s.queries.set j { q with phase } } where
  size := by
    simp only [hentries]
    exact hs.size
  inFlight i r hi hphase := by
    rw [List.getElem?_set] at hi
    simp only [hflight]
    split at hi
    case isTrue hij =>
      rw [if_pos (List.getElem?_eq_some_iff.1 hq).1] at hi
      cases hi
      rw [if_neg hphase, ← hij]
      exact hs.inFlight j q hq hgoing
    case isFalse hij =>
      obtain ⟨hget, hvalid⟩ := hs.inFlight i r hi hphase
      refine ⟨?_, hvalid⟩
      -- two queries in flight have different keys
      have hne : r.key ≠ q.key := by
        intro hkey
        rw [hkey, (hs.inFlight j q hq hgoing).1] at hget
        exact hij (Option.some.inj hget)
      split
      · rw [OrderedMap.get_erase, if_neg hne, hget]
      · exact hget
  sourced key entry i hentry hsource := by
    simp only [hentries] at hentry
    obtain ⟨r, hr, hkey, hvalid, htags⟩ := hs.sourced key entry i hentry hsource
    by_cases hij : j = i
    · subst hij
      rw [hq] at hr
      cases hr
      refine ⟨{ q with phase }, ?_, hkey, hvalid, htags⟩
      rw [List.getElem?_set_self (List.getElem?_eq_some_iff.1 hq).1]
    · exact ⟨r, by rw [List.getElem?_set_ne hij, hr], hkey, hvalid, htags⟩

/-- An invalidation that takes out every key it concerns. -/
theorem invalidated {l : CacheMove δ} (hsize : c.entries.size ≤ s.cache.entries.size)
    (hkept : ∀ key entry', c.entries.get key = some entry' → ∃ entry, s.cache.entries.get key = some entry ∧ entry'.tags = entry.tags)
    (hgone : ∀ (q : Query) (entry : CacheEntry δ), s.cache.entries.get q.key = some entry → entry.tags = q.options.tags.eraseDups → s.cache.concerns l q = true → c.entries.get q.key = none)
    (hflight : ∀ q ∈ s.queries, q.phase ≠ .done → s.cache.concerns l q = false ∧ c.inFlightQueries.get q.key = s.cache.inFlightQueries.get q.key) :
    (s.invalidate l c).Kept config where
  size := Nat.le_trans hsize hs.size
  inFlight j q' hj hphase := by
    obtain ⟨q, hq, rfl⟩ := Option.map_eq_some_iff.1 ((List.getElem?_map ..).symm.trans hj)
    obtain ⟨hnot, hsame⟩ := hflight q (List.mem_of_getElem? hq) hphase
    obtain ⟨hget, hvalid⟩ := hs.inFlight j q hq hphase
    exact ⟨hsame.trans hget, by simp [hvalid, hnot]⟩
  sourced key entry' j hentry' hsource := by
    obtain ⟨entry, hentry, htags⟩ := hkept key entry' hentry'
    obtain ⟨q, hq, rfl, hvalid, hsame⟩ := hs.sourced key entry j hentry hsource
    have hnot : s.cache.concerns l q = false := by
      cases hconcerns : s.cache.concerns l q with
      | false => rfl
      | true =>
        have hnone := hgone q entry hentry hsame hconcerns
        cases hnone.symm.trans hentry'
    refine ⟨{ q with invalidated := q.invalidated || s.cache.concerns l q }, ?_, rfl, by simp [hvalid, hnot],
      htags.trans hsame⟩
    exact (List.getElem?_map ..).trans (by rw [hq]; rfl)

/-! ## Every step -/

theorem settled (hmax : 1 ≤ config.maxEntries) {j : Nat} {q : Query} (hq : s.queries[j]? = some q)
    (hphase : q.phase = .running) {outcome : Option (Option δ)}
    (hroom : outcome.isSome = true → RoomFor config s.cache q.key) : (s.settle config j q outcome).Kept config := by
  have hgoing : q.phase ≠ .done := by simp [hphase]
  cases outcome with
  | none =>
    rw [settle]
    split
    · exact hs.phased hq hgoing .finishing rfl rfl
    · exact hs.phased hq hgoing .done rfl rfl
  | some data =>
    have hstored := hs.stored hmax (hroom rfl) data q.options (some j) fun i hi => by
      cases hi
      exact ⟨q, hq, rfl, (hs.inFlight j q hq hgoing).2, rfl⟩
    rw [settle]
    split
    · exact hstored.phased hq hgoing .finishing rfl rfl
    · refine hstored.phased hq hgoing .done rfl ?_
      simp only [SmartQueryCache.settleForeground, Caching.stored, SmartQueryCache.setEntry_inFlight, if_true]

theorem finished {j : Nat} {q : Query} (hq : s.queries[j]? = some q) (hphase : q.phase = .finishing) :
    (s.finish j q).Kept config :=
  hs.phased hq (by simp [hphase]) .done rfl rfl

theorem wrapped (key : String) (options : CacheWrapOptions) (throws : Bool) :
    (s.wrapped key options throws).Kept config := by
  have hgot : (s.got key).Kept config := hs.reduced (s.cache.getEntry_reduced key s.now)
  rcases (s.cache.wrap_cases key s.now options s.queries.length throws).1 with heq | ⟨hnone, start, heq⟩
  · rw [Caching.wrapped, Caching.wrap, heq]
    simpa [Caching.got] using hgot
  · rw [Caching.wrapped, Caching.wrap, heq]
    have hflight : (s.got key).cache.inFlightQueries = s.cache.inFlightQueries :=
      (s.cache.getEntry_reduced key s.now).inFlight
    have hstarted := hgot.started (hflight ▸ hnone) options.toCacheSetOptions start
    rw [hflight] at hstarted
    exact hstarted

theorem invalidated_of_reduced {l : CacheMove δ} (h : Reduced s.cache c)
    (hgone : ∀ (q : Query) (entry : CacheEntry δ), s.cache.entries.get q.key = some entry → entry.tags = q.options.tags.eraseDups → s.cache.concerns l q = true → c.entries.get q.key = none)
    (hok : ∀ q ∈ s.queries, q.phase ≠ .done → s.cache.concerns l q = false) : (s.invalidate l c).Kept config :=
  hs.invalidated h.size h.kept hgone fun q hq hphase => ⟨hok q hq hphase, by rw [h.inFlight]⟩

/-- A careful step keeps the invariant. -/
theorem step (hmax : 1 ≤ config.maxEntries) (hi : Indexed s.cache) {l : CacheMove δ} {s' : Caching δ}
    (hst : Step config s l s') (hok : Careful config s l) : s'.Kept config := by
  cases hst with
  | @get key => exact hs.reduced (s.cache.getEntry_reduced key s.now)
  | @set key data options => exact hs.stored hmax hok data options none fun j hj => by cases hj
  | @wrap key options throws => exact hs.wrapped key options throws
  | @settle j q outcome hq hphase => exact hs.settled hmax hq hphase fun hsome => hok q hq hsome
  | finish hq hphase => exact hs.finished hq hphase
  | @invalidateKey key =>
    obtain ⟨h, hnone⟩ := s.cache.invalidateKey_reduced key
    refine hs.invalidated_of_reduced h (fun q _ _ _ hq => ?_) hok
    rw [show q.key = key from of_decide_eq_true hq]
    exact hnone
  | @invalidateTag tag =>
    obtain ⟨h, hnone⟩ := s.cache.invalidateTag_reduced hi tag
    refine hs.invalidated_of_reduced h (fun q entry hentry htags hq => hnone q.key ?_) hok
    -- the entry carries the tags of its query
    rcases (of_decide_eq_true hq : tag ∈ q.options.tags ∨ tag ∈ s.cache.tagsAt q.key) with htag | htag
    · refine (s.cache.mem_tagsAt q.key).2 ⟨entry, hentry, ?_⟩
      rw [htags, List.mem_eraseDups]
      exact htag
    · exact htag
  | @invalidatePattern pattern =>
    obtain ⟨h, hnone⟩ := s.cache.invalidatePattern_reduced pattern
    exact hs.invalidated_of_reduced h (fun q _ _ _ hq => hnone q.key hq) hok
  | clear =>
    refine hs.invalidated (Nat.zero_le _) (fun _ _ h => (by cases h)) (fun _ _ _ _ _ => rfl) fun q hq hphase => ?_
    cases hok q hq hphase
  | tick => exact hs.reduced (.refl s.cache)

/-- A careful step returns no value of an invalidated query. -/
theorem stepFresh {l : CacheMove δ} {s' : Caching δ} (hst : Step config s l s') (hok : Careful config s l) :
    StepFresh s l where
  fresh key data hl j q hsource hq := by
    have hentry : ∃ entry, s.cache.entries.get key = some entry := by
      cases hst with
      | get =>
        rcases hl with heq | ⟨options, heq⟩
        · obtain ⟨rfl, hdata⟩ := CacheMove.get.inj heq
          exact s.cache.getEntry_some _ hdata
        · cases heq
      | wrap =>
        rcases hl with heq | ⟨options, heq⟩
        · cases heq
        · obtain ⟨rfl, rfl, hdata⟩ := CacheMove.wrap.inj heq
          exact (s.cache.wrap_cases _ _ _ _ _).2 data hdata
      | _ =>
        rcases hl with heq | ⟨options, heq⟩
        · cases heq
        · cases heq
    obtain ⟨entry, hentry⟩ := hentry
    exact hs.fresh hentry hsource hq
  stale key options result entry hl hstale hentry hexpired := by
    subst hl
    have := hok hstale entry hentry
    omega

end Kept

end Caching

/-- In a run of careful steps the index is exact, there are no more entries than allowed, no query is
in flight twice, no value of an invalidated query is returned, and stale values are where asked for. -/
theorem cache_respects {config : SmartQueryCacheConfig} (hmax : 1 ≤ config.maxEntries) {now : Int} {h}
    {s : Caching δ} (hr : Run (Caching.Step config) (.start now) h s) (hok : Along (Careful config) h) :
    Respects config h s := by
  have hinv : s.Kept config ∧ Respects config h s := by
    refine hr.inv (Careful config) (fun h s => s.Kept config ∧ Respects config h s) ?_ ?_ hok
    · exact ⟨Caching.kept_start now, (Caching.kept_start now).sound indexed_empty⟩
    · intro h s l s' hr hi hok hst
      have hindexed := indexed_run hr
      have hkept := hi.1.step hmax hindexed hst hok
      exact ⟨hkept, hkept.sound (Caching.indexed_step hst hindexed), hi.1.stepFresh hst hok⟩
  exact hinv.2

/-! ## A query, its value, and an invalidation -/

def sampleWaiting : Caching Nat := (Caching.start 0).wrapped "k" {} false

def sampleQuery : Query := ⟨"k", {}, false, .running, false⟩

def sampleStored : Caching Nat := sampleWaiting.settle {} 0 sampleQuery (some (some 7))

theorem cache_respects_kept : Respects {}
    [(sampleStored.got "k", .invalidateKey "k"), (sampleStored, .get "k" (some 7)),
      (sampleWaiting, .settle 0 (some (some 7))), (.start 0, .wrap "k" {} (.waits 0))]
    ((sampleStored.got "k").invalidate (.invalidateKey "k") ((sampleStored.got "k").cache.invalidateKey "k").1) := by
  have hr : Run (Caching.Step {}) (.start 0)
      [(sampleStored.got "k", .invalidateKey "k"), (sampleStored, .get "k" (some 7)),
        (sampleWaiting, .settle 0 (some (some 7))), (.start 0, .wrap "k" {} (.waits 0))] _ :=
    (((Run.nil.snoc .wrap).snoc (.settle (by decide +kernel : sampleWaiting.queries[0]? = some sampleQuery) rfl)).snoc
      .get).snoc .invalidateKey
  refine cache_respects (by decide) hr ?_
  simp only [Along, List.forall_mem_cons]
  refine ⟨?_, fun _ _ _ => rfl, fun q hq _ => ?_, fun h => (by cases h), List.forall_mem_nil _⟩
  · exact (by decide +kernel : ∀ q ∈ (sampleStored.got "k").queries, q.phase ≠ .done →
      (sampleStored.got "k").cache.concerns (.invalidateKey "k") q = false)
  · cases hq
    exact .inr (.inl (by decide +kernel))

/-- The key is invalidated while its query is in flight. -/
def sampleMissed : Caching Nat :=
  sampleWaiting.invalidate (.invalidateKey "k") (sampleWaiting.cache.invalidateKey "k").1

def sampleStale : Caching Nat := sampleMissed.settle {} 0 { sampleQuery with invalidated := true } (some (some 7))

theorem cache_stale : ¬ ∀ (config : SmartQueryCacheConfig) (now : Int) (h : List (Caching Nat × CacheMove Nat))
    (s : Caching Nat), 1 ≤ config.maxEntries → Run (Caching.Step config) (.start now) h s → Respects config h s := by
  intro hclaim
  have hr : Run (Caching.Step {}) (.start 0) ((sampleStale, .get "k" (some 7)) :: _) (sampleStale.got "k") :=
    (((Run.nil.snoc .wrap).snoc .invalidateKey).snoc (.settle (j := 0) (q := { sampleQuery with invalidated := true })
      (by decide +kernel) rfl)).snoc .get
  have hfresh := (hclaim {} 0 _ _ (by decide) hr).2.fresh "k" 7 (.inl rfl) 0
    { sampleQuery with phase := .done, invalidated := true } (by decide +kernel) (by decide +kernel)
  cases hfresh

end QuorumCredit.Server
