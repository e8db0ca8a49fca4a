import QuorumCredit.Host.OrderedMap
import Mathlib.Data.List.Dedup
/-!
# The query cache

`smartQueryCache.ts`: entries with an expiry, an index from tags to keys, and the
queries in flight by key. `undefined` is a value a query may have, and the value
of no entry. Every method runs to its end; what a query does comes later.
-/

namespace QuorumCredit.Server

open Host

variable {δ : Type}

structure CacheEntry (δ : Type) where
  key : String
  data : Option δ
  createdAt : Int
  expiresAt : Int
  tags : List String
  cost : Int
  lastAccessed : Int
  hits : Nat
deriving DecidableEq

structure CacheSetOptions where
  ttlMs : Option Int := none
  tags : List String := []
  cost : Option Int := none
deriving DecidableEq

structure CacheWrapOptions extends CacheSetOptions where
  staleWhileRevalidate : Bool := false
deriving DecidableEq

structure SmartQueryCacheConfig where
  defaultTtlMs : Int := 60000
  maxEntries : Nat := 10000

/-- The cache; a promise of `inFlightQueries` is the number of its query. -/
structure SmartQueryCache (δ : Type) where
  entries : OrderedMap String (CacheEntry δ)
  tagToKeys : OrderedMap String (List String)
  inFlightQueries : OrderedMap String Nat
  hits : Nat
  misses : Nat
  sets : Nat
  invalidations : Nat
  evictions : Nat
deriving DecidableEq

/-- What a call of `wrap` gets: a value at once, or that of a query; or `queryFn` has thrown. -/
inductive WrapResult (δ : Type) where
  | value (data : Option δ)
  | waits (query : Nat)
  | thrown
deriving DecidableEq

/-- How a query is started. One that throws at once is over before it is stored. -/
inductive QueryStart where
  | foreground
  | background
  | thrown
deriving DecidableEq, Repr

/-! ## Patterns -/

/-- `.` matches none of these. -/
def lineTerminator (c : Char) : Bool := c = '\n' ∨ c = '\r' ∨ c = '\u2028' ∨ c = '\u2029'

/-- `.*`, and then the rest. -/
def matchStar (rest : List Char → Bool) : List Char → Bool
  | [] => rest []
  | c :: text => rest (c :: text) || !lineTerminator c && matchStar rest text

def matchWildcard : List Char → List Char → Bool
  | [], text => text.isEmpty
  | c :: pattern, text =>
    if c = '*' then matchStar (matchWildcard pattern) text
    else
      match text with
      | [] => false
      | d :: text => c = d && matchWildcard pattern text

/-- A text with wildcards, or a regular expression, which is a test without state. -/
inductive CachePattern where
  | wildcard (pattern : String)
  | regex (test : String → Bool)

def CachePattern.test : CachePattern → String → Bool
  | .wildcard pattern, key => matchWildcard pattern.toList key.toList
  | .regex test, key => test key

/-! ## The index -/

def keysOf (index : OrderedMap String (List String)) (tag : String) : List String := (index.get tag).getD []

/-- The key is in the set of the tag. -/
def addKey (key : String) (index : OrderedMap String (List String)) (tag : String) : OrderedMap String (List String) :=
  index.set tag (if key ∈ keysOf index tag then keysOf index tag else keysOf index tag ++ [key])

/-- The key is taken out of the set of the tag, and the set with it if none is left. -/
def removeKey (key : String) (index : OrderedMap String (List String)) (tag : String) :
    OrderedMap String (List String) :=
  match index.get tag with
  | none => index
  | some keys => if keys.filter (· ≠ key) = [] then index.erase tag else index.set tag (keys.filter (· ≠ key))

namespace SmartQueryCache

def empty : SmartQueryCache δ := ⟨.empty, .empty, .empty, 0, 0, 0, 0, 0⟩

/-! ## Entries -/

def deleteEntry (c : SmartQueryCache δ) (key : String) : SmartQueryCache δ × Bool :=
  match c.entries.get key with
  | none => (c, false)
  | some entry =>
    ({ c with tagToKeys := entry.tags.foldl (removeKey key) c.tagToKeys, entries := c.entries.erase key }, true)

/-- The first entry with the least last access. -/
def leastRecent : List (String × CacheEntry δ) → Option (String × CacheEntry δ) → Option (String × CacheEntry δ)
  | [], oldest => oldest
  | x :: l, none => leastRecent l (some x)
  | x :: l, some oldest => leastRecent l (some (if x.2.lastAccessed < oldest.2.lastAccessed then x else oldest))

/-- `oldestKey`, which counts as none if it is the empty text. -/
def oldestKey (c : SmartQueryCache δ) : Option String :=
  match leastRecent c.entries.entries none with
  | none => none
  | some (key, _) => if key = "" then none else some key

def evictLru (c : SmartQueryCache δ) : SmartQueryCache δ :=
  match c.oldestKey with
  | none => c
  | some key => { (c.deleteEntry key).1 with evictions := c.evictions + 1 }

def getEntry (c : SmartQueryCache δ) (now : Int) (key : String) : Option δ × SmartQueryCache δ :=
  match c.entries.get key with
  | none => (none, { c with misses := c.misses + 1 })
  | some entry =>
    if now > entry.expiresAt then (none, (({ c with misses := c.misses + 1 } : SmartQueryCache δ).deleteEntry key).1)
    else
      (entry.data, { c with entries := c.entries.set key { entry with lastAccessed := now, hits := entry.hits + 1 }
                            hits := c.hits + 1 })

/-- The entry is added when there is none with its key. -/
def addEntry (c : SmartQueryCache δ) (entry : CacheEntry δ) : SmartQueryCache δ where
  entries := c.entries.set entry.key entry
  tagToKeys := entry.tags.foldl (addKey entry.key) c.tagToKeys
  inFlightQueries := c.inFlightQueries
  hits := c.hits
  misses := c.misses
  sets := c.sets + 1
  invalidations := c.invalidations
  evictions := c.evictions

/-- What is left of the other entries when one with the key is added. -/
def makeRoom (c : SmartQueryCache δ) (maxEntries : Nat) (key : String) : SmartQueryCache δ :=
  if key ∈ c.entries.keys then (c.deleteEntry key).1
  else if c.entries.size ≥ maxEntries then c.evictLru
  else c

def setEntry (config : SmartQueryCacheConfig) (c : SmartQueryCache δ) (now : Int) (key : String) (data : Option δ)
    (options : CacheSetOptions) : SmartQueryCache δ :=
  (c.makeRoom config.maxEntries key).addEntry
    { key, data, createdAt := now, expiresAt := now + options.ttlMs.getD config.defaultTtlMs
      tags := options.tags.eraseDups, cost := options.cost.getD 1, lastAccessed := now, hits := 0 }

/-! ## Invalidation -/

def invalidateKey (c : SmartQueryCache δ) (key : String) : SmartQueryCache δ × Bool :=
  if key ∈ c.entries.keys then ({ (c.deleteEntry key).1 with invalidations := c.invalidations + 1 }, true)
  else (c, false)

/-- The loop over keys, with the number of entries that it deletes. -/
def deleteEntries (c : SmartQueryCache δ) : List String → SmartQueryCache δ × Nat
  | [] => (c, 0)
  | key :: keys =>
    let (c, deleted) := c.deleteEntry key
    let (c, count) := c.deleteEntries keys
    (c, if deleted then count + 1 else count)

def invalidateTag (c : SmartQueryCache δ) (tag : String) : SmartQueryCache δ × Nat :=
  match c.tagToKeys.get tag with
  | none => (c, 0)
  | some [] => (c, 0)
  | some (key :: keys) =>
    let (c, count) := c.deleteEntries (key :: keys)
    ({ c with tagToKeys := c.tagToKeys.erase tag, invalidations := c.invalidations + count }, count)

def invalidatePattern (c : SmartQueryCache δ) (pattern : CachePattern) : SmartQueryCache δ × Nat :=
  let (c, count) := c.deleteEntries (c.entries.keys.filter pattern.test)
  ({ c with invalidations := c.invalidations + count }, count)

def clear (c : SmartQueryCache δ) : SmartQueryCache δ :=
  { c with entries := .empty, tagToKeys := .empty, inFlightQueries := .empty
           invalidations := c.invalidations + c.entries.size }

/-! ## Queries -/

/-- The part of `wrap` after the cache was looked at. `next` is the number of a new query. -/
def joinQuery (c : SmartQueryCache δ) (key : String) (next : Nat) (throws : Bool) :
    WrapResult δ × SmartQueryCache δ × Option QueryStart :=
  match c.inFlightQueries.get key with
  | some query => (.waits query, c, none)
  | none =>
    (.waits next, { c with inFlightQueries := c.inFlightQueries.set key next },
      some (if throws then .thrown else .foreground))

def revalidateInBackground (c : SmartQueryCache δ) (key : String) (stale : Option δ) (next : Nat) (throws : Bool) :
    WrapResult δ × SmartQueryCache δ × Option QueryStart :=
  match c.inFlightQueries.get key with
  | some _ => (.value stale, c, none)
  | none =>
    if throws then (.thrown, c, none)
    else (.value stale, { c with inFlightQueries := c.inFlightQueries.set key next }, some .background)

def wrap (c : SmartQueryCache δ) (now : Int) (key : String) (options : CacheWrapOptions) (next : Nat) (throws : Bool) :
    WrapResult δ × SmartQueryCache δ × Option QueryStart :=
  match c.getEntry now key with
  | (some cached, c) => (.value (some cached), c, none)
  | (none, c) =>
    -- an entry that has expired is gone by now, `getEntry` has deleted it
    match options.staleWhileRevalidate, c.entries.get key with
    | true, some expiredEntry => c.revalidateInBackground key expiredEntry.data next throws
    | _, _ => c.joinQuery key next throws

/-- A query of the foreground has a result or has failed. -/
def settleForeground (config : SmartQueryCacheConfig) (c : SmartQueryCache δ) (now : Int) (key : String)
    (options : CacheSetOptions) (outcome : Option (Option δ)) : SmartQueryCache δ :=
  match outcome with
  | some data =>
    { c.setEntry config now key data options with inFlightQueries := c.inFlightQueries.erase key }
  | none => { c with inFlightQueries := c.inFlightQueries.erase key }

/-- The same in the background, where `finally` comes later. -/
def settleBackground (config : SmartQueryCacheConfig) (c : SmartQueryCache δ) (now : Int) (key : String)
    (options : CacheSetOptions) (outcome : Option (Option δ)) : SmartQueryCache δ :=
  match outcome with
  | some data => c.setEntry config now key data options
  | none => c

def finallyBackground (c : SmartQueryCache δ) (key : String) : SmartQueryCache δ :=
  { c with inFlightQueries := c.inFlightQueries.erase key }

end SmartQueryCache

end QuorumCredit.Server
