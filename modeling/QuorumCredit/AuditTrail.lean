import QuorumCredit.AuditCodec
import QuorumCredit.Contract
import QuorumCredit.Host.Component
import QuorumCredit.MerkleTree
/-!
# Audit trail compression

`audit_trail_compression.rs`: the events of a credential are appended to a hot
trail, and the oldest of them move into numbered archives, packed and under a
digest. Whatever the calls in between, the archives in order followed by the hot
trail are the events appended, and every archive matches its digest. No other
entry point writes these entries.
-/

open Host Function

namespace QuorumCredit

def defaultRetentionPeriodSecs : Nat := 90 * 24 * 60 * 60
def minRetentionPeriodSecs : Nat := 7 * 24 * 60 * 60
def maxRetentionPeriodSecs : Nat := 5 * 365 * 24 * 60 * 60
def maxHotAuditEntries : Nat := 200
def maxEntriesPerArchive : Nat := 50
def maxCompressionLogEntries : Nat := 100

structure CompressedAuditArchive where
  credentialId : Address
  archiveId : Nat
  createdAt : Nat
  entryCount : Nat
  oldestEventTimestamp : UInt64
  newestEventTimestamp : UInt64
  dataHash : Digest
  payload : Bytes

structure RetentionConfig where
  retentionPeriodSecs : Nat
  lastCompressionAt : Nat
  totalArchives : Nat

def defaultRetentionConfig : RetentionConfig :=
  { retentionPeriodSecs := defaultRetentionPeriodSecs, lastCompressionAt := 0, totalArchives := 0 }

/-- The entries of the audit trails, by credential. -/
structure AuditTrails where
  credentialAuditTrail : Address → List CredentialAuditEntry
  compressedAuditArchive : Address → Nat → Option CompressedAuditArchive
  auditTrailCompressionConfig : Address → Option RetentionConfig
  auditTrailCompressionLog : Address → List (Nat × Nat × Nat)

def AuditTrails.empty : AuditTrails :=
  { credentialAuditTrail := fun _ => [], compressedAuditArchive := fun _ _ => none
    auditTrailCompressionConfig := fun _ => none, auditTrailCompressionLog := fun _ => [] }

/-- The value of a computation that reads no state. -/
def ofExcept {σ α : Type} (x : Except Failure α) : Contract σ α := fun _ s => x.map fun a => (a, s)

/-! ## Appending -/

def validateAuditEvent {σ : Type} (event : List UInt8) : Contract σ Unit :=
  require (event ≠ [] ∧ event.length ≤ maxAuditEventBytes) (.error .invalidAuditEvent)

def appendCredentialAuditEntry (credentialId : Address) (event : List UInt8) : Contract AuditTrails Nat := do
  validateAuditEvent event
  let ctx ← ask
  let trail ← look (·.credentialAuditTrail credentialId)
  require (trail.length < maxHotAuditEntries) (.error .auditTrailFull)
  let trail := trail ++ [{ timestamp := .ofNat ctx.now, event }]
  alter fun a : AuditTrails => { a with credentialAuditTrail := update a.credentialAuditTrail credentialId trail }
  return trail.length

/-! ## Compressing -/

section

variable (sha256 : List UInt8 → Digest)

/-- SHA-256 over `(archive_id, entry_count, payload)`. -/
def archiveDigest (archiveId entryCount : Nat) (payload : Bytes) : Except Failure Digest := do
  let preimage ← Bytes.empty.append .host (Xdr.bigEndian 4 archiveId)
  let preimage ← preimage.append .host (Xdr.bigEndian 4 entryCount)
  let preimage ← preimage.append .host payload.data
  return sha256 preimage.data

/-- The loop of `compress_audit_trail`: what is archived, and what stays. -/
def splitTrail (olderThan : Nat) : List CredentialAuditEntry → List CredentialAuditEntry →
    List CredentialAuditEntry → List CredentialAuditEntry × List CredentialAuditEntry
  | [], archived, remaining => (archived, remaining)
  | entry :: trail, archived, remaining =>
    if entry.timestamp.toNat < olderThan ∧ archived.length < maxEntriesPerArchive then
      splitTrail olderThan trail (archived ++ [entry]) remaining
    else splitTrail olderThan trail archived (remaining ++ [entry])

def AuditTrails.getRetentionConfig (a : AuditTrails) (credentialId : Address) : RetentionConfig :=
  (a.auditTrailCompressionConfig credentialId).getD defaultRetentionConfig

theorem AuditTrails.getRetentionConfig_congr {a a' : AuditTrails} {c : Address}
    (h : a'.auditTrailCompressionConfig c = a.auditTrailCompressionConfig c) :
    a'.getRetentionConfig c = a.getRetentionConfig c := by
  unfold getRetentionConfig
  rw [h]

theorem AuditTrails.getRetentionConfig_of_some {a : AuditTrails} {c : Address} {config : RetentionConfig}
    (h : a.auditTrailCompressionConfig c = some config) : a.getRetentionConfig c = config := by
  unfold getRetentionConfig
  rw [h, Option.getD_some]

def compressAuditTrail (credentialId : Address) (olderThan : Nat) : Contract AuditTrails Nat := do
  let trail ← look (·.credentialAuditTrail credentialId)
  let (archived, remaining) := splitTrail olderThan trail [] []
  require (archived ≠ []) (.error .noEventsToCompress)
  let config ← look (·.getRetentionConfig credentialId)
  let archiveId := config.totalArchives
  let entryCount := archived.length
  let payload ← ofExcept (encodeEntries archived)
  let ctx ← ask
  let archive : CompressedAuditArchive :=
    { credentialId, archiveId, createdAt := ctx.now, entryCount
      oldestEventTimestamp := (archived[0]?.map (·.timestamp)).getD 0
      newestEventTimestamp := (archived[entryCount - 1]?.map (·.timestamp)).getD 0
      dataHash := ← ofExcept (archiveDigest sha256 archiveId entryCount payload)
      payload }
  alter fun a : AuditTrails =>
    { a with
      compressedAuditArchive :=
        update a.compressedAuditArchive credentialId
          (update (a.compressedAuditArchive credentialId) archiveId (some archive)) }
  let totalArchives ← u32 .arithmetic (archiveId + 1)
  let config := { config with totalArchives, lastCompressionAt := ctx.now }
  alter fun a : AuditTrails =>
    { a with
      auditTrailCompressionConfig := update a.auditTrailCompressionConfig credentialId (some config)
      credentialAuditTrail := update a.credentialAuditTrail credentialId remaining }
  let log ← look (·.auditTrailCompressionLog credentialId)
  let log := if maxCompressionLogEntries ≤ log.length then log.drop 1 else log
  let log := log ++ [(ctx.now, archiveId, entryCount)]
  alter fun a : AuditTrails =>
    { a with auditTrailCompressionLog := update a.auditTrailCompressionLog credentialId log }
  return archiveId

def compressExpiredAuditEntries (credentialId : Address) : Contract AuditTrails Nat := do
  let config ← look (·.getRetentionConfig credentialId)
  let ctx ← ask
  compressAuditTrail sha256 credentialId (ctx.now - config.retentionPeriodSecs)

def setRetentionConfig (credentialId : Address) (retentionPeriodSecs : Nat) : Contract AuditTrails Unit := do
  require (minRetentionPeriodSecs ≤ retentionPeriodSecs ∧ retentionPeriodSecs ≤ maxRetentionPeriodSecs)
    (.error .invalidRetentionPeriod)
  let config ← look (·.getRetentionConfig credentialId)
  alter fun a : AuditTrails =>
    { a with
      auditTrailCompressionConfig :=
        update a.auditTrailCompressionConfig credentialId (some { config with retentionPeriodSecs }) }

/-! ## Reading -/

namespace AuditTrails

variable (a : AuditTrails)

def getCompressedArchive (credentialId : Address) (archiveId : Nat) : Except Failure CompressedAuditArchive :=
  match a.compressedAuditArchive credentialId archiveId with
  | some archive => .ok archive
  | none => .error (.error .archiveNotFound)

def verifyArchiveIntegrity (credentialId : Address) (archiveId : Nat) : Except Failure Bool := do
  let archive ← a.getCompressedArchive credentialId archiveId
  let expected ← archiveDigest sha256 archive.archiveId archive.entryCount archive.payload
  return expected = archive.dataHash

def getArchiveEntries (credentialId : Address) (archiveId : Nat) : Except Failure (List CredentialAuditEntry) := do
  if (← a.verifyArchiveIntegrity sha256 credentialId archiveId) = false then throw (.error .archiveIntegrityFailed)
  else do
    let archive ← a.getCompressedArchive credentialId archiveId
    decodeEntries archive.payload archive.entryCount

end AuditTrails

end

/-! ## Runs -/

/-- The calls that write the trails. The entry points over them add the holder's
signature, and a batch of appends makes one call for each. -/
inductive AuditOp where
  | appendCredentialAuditEntry (credentialId : Address) (event : List UInt8)
  | compressAuditTrail (credentialId : Address) (olderThan : Nat)
  | compressExpiredAuditEntries (credentialId : Address)
  | setRetentionConfig (credentialId : Address) (retentionPeriodSecs : Nat)

def AuditOp.run (sha256 : List UInt8 → Digest) : AuditOp → Contract AuditTrails Unit
  | .appendCredentialAuditEntry credentialId event =>
    discard (QuorumCredit.appendCredentialAuditEntry credentialId event)
  | .compressAuditTrail credentialId olderThan =>
    discard (QuorumCredit.compressAuditTrail sha256 credentialId olderThan)
  | .compressExpiredAuditEntries credentialId => discard (QuorumCredit.compressExpiredAuditEntries sha256 credentialId)
  | .setRetentionConfig credentialId retentionPeriodSecs =>
    QuorumCredit.setRetentionConfig credentialId retentionPeriodSecs

/-- The audit trails as a part of the contract. The ledger clock is a 64-bit number and does not go back. -/
def auditTrails (sha256 : List UInt8 → Digest) :
    Component World (List Address) Context Failure AuditTrails AuditOp where
  run := AuditOp.run sha256
  context w signers := { w with signers }
  drift w a w' a' := w.now ≤ w'.now ∧ w'.now ≤ u64Max ∧ a' = a

abbrev AuditHistory := List (Situated World AuditTrails × Event World (List Address) AuditTrails AuditOp)

section

variable {sha256 : List UInt8 → Digest}

/-! ## What a call does -/

/-- An archive under this id of these entries. -/
structure CompressedAuditArchive.Holds (archive : CompressedAuditArchive) (sha256 : List UInt8 → Digest) (id : Nat)
    (entries : List CredentialAuditEntry) : Prop where
  archiveId : archive.archiveId = id
  entryCount : archive.entryCount = entries.length
  payload : archive.payload.data = entryFormat.writeAll entries
  digest : archiveDigest sha256 id entries.length archive.payload = .ok archive.dataHash

theorem yields_ofExcept {σ α : Type} (x : Except Failure α) (w : Context) (s : σ) (Q : α → σ → Prop) :
    Yields (ofExcept x : Contract σ α) w s Q ↔ ∀ a, x = .ok a → Q a s := by
  unfold Yields ofExcept
  cases x with
  | error e => simp [Except.map]
  | ok a => simp [Except.map]

theorem yields_appendCredentialAuditEntry (c : Address) (event : List UInt8) (ctx : Context) (a : AuditTrails) :
    Yields (appendCredentialAuditEntry c event) ctx a fun _ t =>
      (event ≠ [] ∧ event.length ≤ maxAuditEventBytes) ∧
        t = { a with
          credentialAuditTrail := update a.credentialAuditTrail c
            (a.credentialAuditTrail c ++ [{ timestamp := .ofNat ctx.now, event }]) } := by
  unfold appendCredentialAuditEntry validateAuditEvent
  simp only [yields_steps]
  intro hvalid _
  exact ⟨hvalid, trivial⟩

theorem yields_compressAuditTrail (c : Address) (olderThan : Nat) (ctx : Context) (a : AuditTrails)
    (hfits : ∀ e ∈ (splitTrail olderThan (a.credentialAuditTrail c) [] []).1, entryFormat.Fits e) :
    Yields (compressAuditTrail sha256 c olderThan) ctx a fun _ t =>
      ∃ archive config log, archive.Holds sha256 (a.getRetentionConfig c).totalArchives
          (splitTrail olderThan (a.credentialAuditTrail c) [] []).1 ∧
        config.totalArchives = (a.getRetentionConfig c).totalArchives + 1 ∧
        t = {
          credentialAuditTrail := update a.credentialAuditTrail c
            (splitTrail olderThan (a.credentialAuditTrail c) [] []).2
          compressedAuditArchive := update a.compressedAuditArchive c
            (update (a.compressedAuditArchive c) (a.getRetentionConfig c).totalArchives (some archive))
          auditTrailCompressionConfig := update a.auditTrailCompressionConfig c (some config)
          auditTrailCompressionLog := update a.auditTrailCompressionLog c log } := by
  unfold compressAuditTrail
  simp only [yields_steps, yields_ofExcept, yields_u32]
  intro _ payload hpayload digest hdigest _
  rw [encodeEntries_eq hfits] at hpayload
  split at hpayload
  case isTrue hsize =>
    cases hpayload
    -- the state written names the archive, and the archive meets its parts
    refine ⟨_, _, _, ?_, ?_, rfl⟩
    · exact ⟨rfl, rfl, rfl, hdigest⟩
    · rfl
  case isFalse => cases hpayload

theorem yields_setRetentionConfig (c : Address) (secs : Nat) (ctx : Context) (a : AuditTrails) :
    Yields (setRetentionConfig c secs) ctx a fun _ t =>
      ∃ config, config.totalArchives = (a.getRetentionConfig c).totalArchives ∧
        t = { a with auditTrailCompressionConfig := update a.auditTrailCompressionConfig c (some config) } := by
  unfold setRetentionConfig
  simp only [yields_steps]
  intro _
  exact ⟨{ a.getRetentionConfig c with retentionPeriodSecs := secs }, rfl, rfl⟩

/-! ## The trail in order -/

/-- Entries in the order of their timestamps. -/
def InTime (trail : List CredentialAuditEntry) : Prop :=
  trail.Pairwise fun e e' => e.timestamp.toNat ≤ e'.timestamp.toNat

theorem splitTrail_stop {olderThan : Nat} {trail archived : List CredentialAuditEntry}
    (h : ∀ e ∈ trail, ¬ (e.timestamp.toNat < olderThan ∧ archived.length < maxEntriesPerArchive))
    (remaining : List CredentialAuditEntry) :
    splitTrail olderThan trail archived remaining = (archived, remaining ++ trail) := by
  induction trail generalizing remaining with
  | nil => rw [splitTrail, List.append_nil]
  | cons entry trail ih =>
    rw [List.forall_mem_cons] at h
    rw [splitTrail, if_neg h.1, ih h.2, List.append_assoc, List.singleton_append]

/-- A trail in order is split in two where it stands. -/
theorem splitTrail_append (olderThan : Nat) {trail : List CredentialAuditEntry} (htime : InTime trail)
    (archived : List CredentialAuditEntry) :
    (splitTrail olderThan trail archived []).1 ++ (splitTrail olderThan trail archived []).2 = archived ++ trail := by
  induction trail generalizing archived with
  | nil => rfl
  | cons entry trail ih =>
    obtain ⟨hfirst, hrest⟩ := List.pairwise_cons.1 htime
    rw [splitTrail]
    split
    case isTrue => rw [ih hrest, List.append_assoc, List.singleton_append]
    case isFalse hstop =>
      rw [splitTrail_stop]
      · rfl
      · intro e he hmore
        exact hstop ⟨Nat.lt_of_le_of_lt (hfirst e he) hmore.1, hmore.2⟩

/-! ## What is kept -/

/-- The archives hold these lists of entries, each under its own id, and there are no others. -/
structure Archived (sha256 : List UInt8 → Digest) (archives : Nat → Option CompressedAuditArchive)
    (lists : List (List CredentialAuditEntry)) : Prop where
  holds : ∀ {id entries}, lists[id]? = some entries →
    ∃ archive, archives id = some archive ∧ archive.Holds sha256 id entries
  rest : ∀ {id}, lists[id]? = none → archives id = none

/-- The archives and the hot trail of the credential are the events, in order. -/
structure TrailKept (sha256 : List UInt8 → Digest) (c : Address) (now : Nat) (a : AuditTrails)
    (events : List CredentialAuditEntry) : Prop where
  inTime : InTime (a.credentialAuditTrail c)
  past : ∀ e ∈ a.credentialAuditTrail c, e.timestamp.toNat ≤ now
  fits : ∀ e ∈ events, entryFormat.Fits e
  archived : ∃ lists, Archived sha256 (a.compressedAuditArchive c) lists ∧
    lists.length = (a.getRetentionConfig c).totalArchives ∧ lists.flatten ++ a.credentialAuditTrail c = events

namespace TrailKept

variable {c : Address} {now : Nat} {a t : AuditTrails} {events : List CredentialAuditEntry}

/-- Whoever looks at the credential alone sees no difference. -/
theorem congr (hk : TrailKept sha256 c now a events) (htrail : t.credentialAuditTrail c = a.credentialAuditTrail c)
    (harchive : t.compressedAuditArchive c = a.compressedAuditArchive c)
    (htotal : (t.getRetentionConfig c).totalArchives = (a.getRetentionConfig c).totalArchives) :
    TrailKept sha256 c now t events := by
  refine ⟨?_, ?_, hk.fits, ?_⟩
  · rw [htrail]
    exact hk.inTime
  · rw [htrail]
    exact hk.past
  · rw [htrail, harchive, htotal]
    exact hk.archived

theorem later (hk : TrailKept sha256 c now a events) {now' : Nat} (hnow : now ≤ now') :
    TrailKept sha256 c now' a events :=
  ⟨hk.inTime, fun e he => Nat.le_trans (hk.past e he) hnow, hk.fits, hk.archived⟩

theorem trail_fits (hk : TrailKept sha256 c now a events) : ∀ e ∈ a.credentialAuditTrail c, entryFormat.Fits e := by
  obtain ⟨lists, -, -, hevents⟩ := hk.archived
  intro e he
  apply hk.fits
  rw [← hevents]
  exact List.mem_append_right _ he

theorem append (hk : TrailKept sha256 c now a events) (hnow : now ≤ u64Max) {event : List UInt8}
    (hvalid : event ≠ [] ∧ event.length ≤ maxAuditEventBytes)
    (ht : t = { a with
      credentialAuditTrail := update a.credentialAuditTrail c
        (a.credentialAuditTrail c ++ [{ timestamp := .ofNat now, event }]) }) :
    TrailKept sha256 c now t (events ++ [{ timestamp := .ofNat now, event }]) := by
  have htime : (UInt64.ofNat now).toNat = now := by
    apply UInt64.toNat_ofNat_of_lt'
    unfold u64Max at hnow
    unfold UInt64.size
    omega
  have htrail : t.credentialAuditTrail c = a.credentialAuditTrail c ++ [{ timestamp := .ofNat now, event }] := by
    rw [ht]
    exact update_self ..
  have htotal : t.getRetentionConfig c = a.getRetentionConfig c := AuditTrails.getRetentionConfig_congr (by rw [ht])
  refine ⟨?_, ?_, ?_, ?_⟩
  · rw [htrail, InTime, List.pairwise_append]
    refine ⟨hk.inTime, List.pairwise_singleton _ _, fun e he e' he' => ?_⟩
    rw [List.mem_singleton.1 he', htime]
    exact hk.past e he
  · rw [htrail]
    intro e he
    rcases List.mem_append.1 he with he | he
    · exact hk.past e he
    · rw [List.mem_singleton.1 he, htime]
  · intro e he
    rcases List.mem_append.1 he with he | he
    · exact hk.fits e he
    · rw [List.mem_singleton.1 he]
      exact (entryFormat_fits _).2 hvalid
  · obtain ⟨lists, harchived, hlen, hevents⟩ := hk.archived
    have harchive : t.compressedAuditArchive c = a.compressedAuditArchive c := by rw [ht]
    refine ⟨lists, harchive ▸ harchived, htotal ▸ hlen, ?_⟩
    rw [htrail, ← hevents, List.append_assoc]

theorem compress (hk : TrailKept sha256 c now a events) {olderThan : Nat} {archive : CompressedAuditArchive}
    {config : RetentionConfig} (hholds : archive.Holds sha256 (a.getRetentionConfig c).totalArchives
      (splitTrail olderThan (a.credentialAuditTrail c) [] []).1)
    (hconfig : config.totalArchives = (a.getRetentionConfig c).totalArchives + 1)
    (htrail : t.credentialAuditTrail c = (splitTrail olderThan (a.credentialAuditTrail c) [] []).2)
    (harchive : t.compressedAuditArchive c =
      update (a.compressedAuditArchive c) (a.getRetentionConfig c).totalArchives (some archive))
    (htotal : t.getRetentionConfig c = config) : TrailKept sha256 c now t events := by
  have hsplit := splitTrail_append olderThan hk.inTime []
  rw [List.nil_append] at hsplit
  generalize splitTrail olderThan (a.credentialAuditTrail c) [] [] = split at *
  have hsub : split.2.Sublist (a.credentialAuditTrail c) := hsplit ▸ List.sublist_append_right _ _
  refine ⟨?_, ?_, hk.fits, ?_⟩
  · rw [htrail]
    exact hk.inTime.sublist hsub
  · rw [htrail]
    exact fun e he => hk.past e (hsub.subset he)
  · obtain ⟨lists, harchived, hlen, hevents⟩ := hk.archived
    refine ⟨lists ++ [split.1], ⟨?_, ?_⟩, ?_, ?_⟩
    · intro id entries hid
      rw [harchive]
      rcases Nat.lt_trichotomy id lists.length with hlt | rfl | hgt
      · rw [List.getElem?_append_left hlt] at hid
        rw [update_of_ne (by omega)]
        exact harchived.holds hid
      · rw [List.getElem?_concat_length, Option.some.injEq] at hid
        rw [hlen, update_self, ← hid]
        exact ⟨archive, rfl, hholds⟩
      · rw [List.getElem?_eq_none (by simp; omega)] at hid
        cases hid
    · intro id hid
      have hge := List.getElem?_eq_none_iff.1 hid
      rw [List.length_append, List.length_singleton] at hge
      rw [harchive, update_of_ne (by omega)]
      exact harchived.rest (List.getElem?_eq_none (by omega))
    · rw [List.length_append, List.length_singleton, htotal, hconfig, hlen]
    · rw [List.flatten_concat, htrail, List.append_assoc, hsplit, hevents]

end TrailKept

/-! ## Every run -/

/-- What the call appends to the credential's trail when it goes through. -/
def AuditOp.appends (c : Address) (now : Nat) : AuditOp → List CredentialAuditEntry
  | .appendCredentialAuditEntry c' event => if c' = c then [{ timestamp := .ofNat now, event }] else []
  | _ => []

/-- What the step appended. -/
def appendedBy (sha256 : List UInt8 → Digest) (c : Address)
    (e : Situated World AuditTrails × Event World (List Address) AuditTrails AuditOp) : List CredentialAuditEntry :=
  match (auditTrails sha256).done e.1 e.2 with
  | some (op, _) => op.appends c e.1.world.now
  | none => []

/-- All the events the calls of the history appended to the credential's trail, in order. -/
def appended (sha256 : List UInt8 → Digest) (c : Address) (h : AuditHistory) :
    List CredentialAuditEntry :=
  h.reverse.flatMap (appendedBy sha256 c)

theorem appended_cons (c : Address) (e : Situated World AuditTrails × Event World (List Address) AuditTrails AuditOp)
    (h : AuditHistory) :
    appended sha256 c (e :: h) = appended sha256 c h ++ appendedBy sha256 c e := by
  simp [appended]

variable {s : Situated World AuditTrails}

theorem appended_call {signers : List Address} {op : AuditOp} {t : AuditTrails}
    (he : (auditTrails sha256).exec s signers op = some t) (c : Address) (h : AuditHistory) :
    appended sha256 c ((s, .call signers op) :: h) = appended sha256 c h ++ op.appends c s.world.now := by
  rw [appended_cons, appendedBy, Component.done_call he]

theorem appended_idle {e : Event World (List Address) AuditTrails AuditOp}
    (hnone : (auditTrails sha256).done s e = none) (c : Address) (h : AuditHistory) :
    appended sha256 c ((s, e) :: h) = appended sha256 c h := by
  rw [appended_cons, appendedBy, hnone, List.append_nil]

/-- Compressing a trail moves its entries, and touches no other credential. -/
theorem TrailKept.compressed {c : Address} {events : Address → List CredentialAuditEntry} {a : AuditTrails}
    (ctx : Context)
    (hk : ∀ c, TrailKept sha256 c ctx.now a (events c)) (c' : Address) (olderThan : Nat) :
    Yields (compressAuditTrail sha256 c' olderThan) ctx a fun _ t => TrailKept sha256 c ctx.now t (events c) := by
  have hsplit := splitTrail_append olderThan (hk c').inTime []
  have hfits : ∀ e ∈ (splitTrail olderThan (a.credentialAuditTrail c') [] []).1, entryFormat.Fits e := by
    intro e he
    apply (hk c').trail_fits
    rw [← List.nil_append (a.credentialAuditTrail c'), ← hsplit]
    exact List.mem_append_left _ he
  refine (yields_compressAuditTrail c' olderThan ctx a hfits).mono ?_
  rintro _ t ⟨archive, config, log, hholds, hconfig, rfl⟩
  by_cases hc : c' = c
  · subst hc
    exact (hk c').compress hholds hconfig (update_self ..) (update_self ..)
      (AuditTrails.getRetentionConfig_of_some (update_self ..))
  · refine (hk c).congr (update_of_ne (Ne.symm hc) ..) (update_of_ne (Ne.symm hc) ..) ?_
    exact congrArg _ (AuditTrails.getRetentionConfig_congr (update_of_ne (Ne.symm hc) ..))

/-- A call that goes through keeps every credential's events. -/
theorem trailKept_call {signers : List Address} {op : AuditOp} {t : AuditTrails} {h : AuditHistory}
    (hnow : s.world.now ≤ u64Max) (hk : ∀ c, TrailKept sha256 c s.world.now s.store (appended sha256 c h))
    (he : (auditTrails sha256).exec s signers op = some t) (c : Address) :
    TrailKept sha256 c s.world.now t (appended sha256 c ((s, .call signers op) :: h)) := by
  rw [appended_call he]
  apply Component.exec_yields (Q := fun t => TrailKept sha256 c s.world.now t _) ?_ he
  cases op with
  | appendCredentialAuditEntry c' event =>
    simp only [auditTrails, AuditOp.run, discard, yields_steps, AuditOp.appends]
    refine (yields_appendCredentialAuditEntry c' event _ s.store).mono ?_
    rintro _ t ⟨hvalid, rfl⟩
    by_cases hc : c' = c
    · subst hc
      rw [if_pos rfl]
      exact (hk c').append hnow hvalid rfl
    · rw [if_neg hc, List.append_nil]
      exact (hk c).congr (update_of_ne (Ne.symm hc) ..) rfl rfl
  | compressAuditTrail c' olderThan =>
    simp only [auditTrails, AuditOp.run, discard, yields_steps, AuditOp.appends, List.append_nil]
    exact TrailKept.compressed { s.world with signers } hk c' olderThan
  | compressExpiredAuditEntries c' =>
    simp only [auditTrails, AuditOp.run, compressExpiredAuditEntries, discard, yields_steps, AuditOp.appends,
      List.append_nil]
    exact TrailKept.compressed { s.world with signers } hk c' _
  | setRetentionConfig c' secs =>
    simp only [AuditOp.appends, List.append_nil]
    refine (yields_setRetentionConfig c' secs _ s.store).mono ?_
    rintro _ t ⟨config, htotal, rfl⟩
    refine (hk c).congr rfl rfl ?_
    by_cases hc : c' = c
    · subst hc
      rw [AuditTrails.getRetentionConfig_of_some (update_self ..), htotal]
    · exact congrArg _ (AuditTrails.getRetentionConfig_congr (update_of_ne (Ne.symm hc) ..))

/-- No event logged yet. -/
def auditStart (world : World) : Situated World AuditTrails := ⟨world, .empty⟩

theorem trailKept_run {w : World} (hw : w.now ≤ u64Max) {h : AuditHistory}
    (hr : Run (auditTrails sha256).Step (auditStart w) h s) (c : Address) :
    TrailKept sha256 c s.world.now s.store (appended sha256 c h) := by
  refine (Component.inv
    (I := fun h s => s.world.now ≤ u64Max ∧ ∀ c, TrailKept sha256 c s.world.now s.store (appended sha256 c h))
    ⟨hw, fun c => ?_⟩ (fun _ hi he => ⟨hi.1, trailKept_call hi.1 hi.2 he⟩) ?_ hr).2 c
  · refine ⟨List.Pairwise.nil, List.forall_mem_nil _, List.forall_mem_nil _, [], ⟨?_, ?_⟩, rfl, rfl⟩
    · rintro id entries ⟨⟩
    · exact fun _ => rfl
  · rintro h s e s' ⟨hnow, hk⟩ hnone hsame
    simp only [appended_idle hnone]
    rcases hsame with rfl | ⟨hlater, hnow', hstore⟩
    · exact ⟨hnow, hk⟩
    · rw [hstore]
      exact ⟨hnow', fun c => (hk c).later hlater⟩

/-- The archives of the credential in the order of their ids, and the hot trail after them. -/
def AuditTrails.replay (a : AuditTrails) (sha256 : List UInt8 → Digest) (c : Address) :
    Except Failure (List CredentialAuditEntry) := do
  let archives ← (List.range (a.getRetentionConfig c).totalArchives).mapM (a.getArchiveEntries sha256 c)
  return archives.flatten ++ a.credentialAuditTrail c

theorem CompressedAuditArchive.Holds.verified {a : AuditTrails} {archive : CompressedAuditArchive} {c : Address}
    {id : Nat} {entries : List CredentialAuditEntry} (hstored : a.compressedAuditArchive c id = some archive)
    (hholds : archive.Holds sha256 id entries) : a.verifyArchiveIntegrity sha256 c id = .ok true := by
  unfold AuditTrails.verifyArchiveIntegrity AuditTrails.getCompressedArchive
  rw [hstored]
  dsimp only
  rw [except_ok_bind, hholds.archiveId, hholds.entryCount, hholds.digest, except_ok_bind]
  exact congrArg Except.ok (decide_eq_true rfl)

theorem CompressedAuditArchive.Holds.decoded {a : AuditTrails} {archive : CompressedAuditArchive} {c : Address}
    {id : Nat} {entries : List CredentialAuditEntry} (hstored : a.compressedAuditArchive c id = some archive)
    (hholds : archive.Holds sha256 id entries) (hfits : ∀ e ∈ entries, entryFormat.Fits e) :
    a.getArchiveEntries sha256 c id = .ok entries := by
  unfold AuditTrails.getArchiveEntries
  rw [hholds.verified hstored, except_ok_bind, if_neg (by decide), AuditTrails.getCompressedArchive, hstored]
  exact decodeEntries_eq_ok_iff.2 ⟨⟨hfits, hholds.payload⟩, hholds.entryCount.symm⟩

/-- Reading a list member by member. -/
theorem mapM_range {ε β : Type} {f : Nat → Except ε β} {xs : List β}
    (h : ∀ i x, xs[i]? = some x → f i = .ok x) : (List.range xs.length).mapM f = .ok xs := by
  induction xs using List.reverseRecOn with
  | nil => rfl
  | append_singleton xs x ih =>
    have hlast : [xs.length].mapM f = .ok [x] := by
      rw [List.mapM_cons, h xs.length x List.getElem?_concat_length]
      rfl
    rw [List.length_append, List.length_singleton, List.range_succ, List.mapM_append, ih, except_ok_bind, hlast]
    · rfl
    · intro i y hy
      apply h
      rw [List.getElem?_append_left (List.getElem?_eq_some_iff.1 hy).1, hy]

/-- In every run the archives followed by the hot trail are the events appended, in
order, and every stored archive matches its digest. -/
theorem audit_events_kept {w : World} (hw : w.now ≤ u64Max)
    {h : AuditHistory}
    {s : Situated World AuditTrails} (hr : Run (auditTrails sha256).Step (auditStart w) h s) (c : Address) :
    s.store.replay sha256 c = .ok (appended sha256 c h) ∧
      ∀ id archive, s.store.compressedAuditArchive c id = some archive →
        s.store.verifyArchiveIntegrity sha256 c id = .ok true := by
  have hk := trailKept_run hw hr c
  obtain ⟨lists, harchived, hlen, hevents⟩ := hk.archived
  constructor
  · have hread : (List.range lists.length).mapM (s.store.getArchiveEntries sha256 c) = .ok lists := by
      apply mapM_range
      intro id entries hid
      obtain ⟨archive, hstored, hholds⟩ := harchived.holds hid
      refine hholds.decoded hstored fun e he => hk.fits e ?_
      rw [← hevents]
      exact List.mem_append_left _ (List.mem_flatten_of_mem (List.mem_of_getElem? hid) he)
    rw [AuditTrails.replay, ← hlen, hread, except_ok_bind, hevents]
    rfl
  · intro id archive hstored
    cases hid : lists[id]? with
    | none =>
      rw [harchived.rest hid] at hstored
      cases hstored
    | some entries =>
      obtain ⟨archive', hstored', hholds⟩ := harchived.holds hid
      exact hholds.verified hstored'

/-- Two events are archived, and a third is logged. -/
def archivedTwo : List (List Address × AuditOp) :=
  [([], .appendCredentialAuditEntry 7 [1]), ([], .appendCredentialAuditEntry 7 [2, 3]),
    ([], .compressAuditTrail 7 2000000), ([], .appendCredentialAuditEntry 7 [4])]

theorem audit_events_kept_archived :
    ∃ s : Situated World AuditTrails, (s.store.getRetentionConfig 7).totalArchives = 1 ∧
      s.store.replay Sha256.digest 7 = .ok [⟨1000000, [1]⟩, ⟨1000000, [2, 3]⟩, ⟨1000000, [4]⟩] := by
  have hr := (auditTrails Sha256.digest).run_play (.nil : Run _ (auditStart sampleWorld) [] _) archivedTwo
  have happended : appended Sha256.digest 7
      ((auditTrails Sha256.digest).trace (auditStart sampleWorld) [] archivedTwo) =
        [⟨1000000, [1]⟩, ⟨1000000, [2, 3]⟩, ⟨1000000, [4]⟩] := by decide +kernel
  refine ⟨(auditTrails Sha256.digest).play (auditStart sampleWorld) archivedTwo, by decide +kernel, ?_⟩
  rw [(audit_events_kept (by decide) hr 7).1, happended]

end

end QuorumCredit
