import QuorumCredit.Types
import QuorumCredit.Host.Format
/-!
# The audit archive codec

`audit_trail_compression.rs`: the packed encoding of archived audit entries, a
timestamp and a length in front of each event. The decoder is told how many
entries to expect and refuses everything that `encodeEntries` does not write.
-/

open Host

namespace QuorumCredit

def maxAuditEventBytes : Nat := 256

/-- Bytes of header per packed entry: 8-byte timestamp + 4-byte length. -/
def entryHeaderBytes : Nat := 12

structure CredentialAuditEntry where
  timestamp : UInt64
  event : List UInt8
deriving DecidableEq

/-! ## The source -/

def encodeEntry (out : Bytes) (entry : CredentialAuditEntry) : Except Failure Bytes := do
  let len := entry.event.length
  if len = 0 ∨ maxAuditEventBytes < len then throw (.error .invalidAuditEvent)
  else do
    let out ← out.append .host (Xdr.bigEndian 8 entry.timestamp.toNat)
    let out ← out.append .host (Xdr.bigEndian 4 len)
    out.append .host entry.event

def encodeEntries (entries : List CredentialAuditEntry) : Except Failure Bytes :=
  entries.foldlM encodeEntry .empty

/-- Copy `n` bytes starting at `pos`. The caller guarantees `pos + n ≤ len`. -/
def readArray (n : Nat) (payload : Bytes) (pos : Nat) : Except Failure (List UInt8) := do
  payload.slice .host pos (← addU32 .arithmetic pos n)

/-- One turn of the loop of `decode_entries`: the entry at `pos`, and where the next one starts. -/
def decodeEntry (payload : Bytes) (pos : Nat) : Except Failure (CredentialAuditEntry × Nat) := do
  let total := payload.len
  let left ← subU32 .arithmetic total pos
  if left < entryHeaderBytes then throw (.error .archiveCorrupted)
  else do
    let timestamp := UInt64.ofNat (ofBigEndian (← readArray 8 payload pos))
    let len := ofBigEndian (← readArray 4 payload (← addU32 .arithmetic pos 8))
    let pos ← addU32 .arithmetic pos entryHeaderBytes
    if len = 0 ∨ maxAuditEventBytes < len then throw (.error .archiveCorrupted)
    else do
      let left ← subU32 .arithmetic total pos
      if left < len then throw (.error .archiveCorrupted)
      else do
        let next ← addU32 .arithmetic pos len
        return ({ timestamp, event := ← payload.slice .host pos next }, next)

/-! ## The format of an entry -/

def entryFormat : Format CredentialAuditEntry :=
  ((Format.word 8).pair (Format.sized 4 fun len => len ≠ 0 ∧ len ≤ maxAuditEventBytes)).iso
    (fun p => ⟨.ofNat p.1, p.2⟩) (fun entry => (entry.timestamp.toNat, entry.event))
    (fun _ hfits => by rw [UInt64.toNat_ofNat_of_lt' hfits.1]) (fun _ => by rw [UInt64.ofNat_toNat])

theorem entryFormat_fits (entry : CredentialAuditEntry) :
    entryFormat.Fits entry ↔ entry.event ≠ [] ∧ entry.event.length ≤ maxAuditEventBytes := by
  change (entry.timestamp.toNat < 256 ^ 8 ∧
    (entry.event.length ≠ 0 ∧ entry.event.length ≤ maxAuditEventBytes) ∧ entry.event.length < 256 ^ 4) ↔ _
  have htime := entry.timestamp.toNat_lt
  unfold maxAuditEventBytes
  rw [ne_eq, List.length_eq_zero_iff]
  constructor
  · rintro ⟨-, hevent, -⟩
    exact hevent
  · intro hevent
    exact ⟨htime, hevent, by omega⟩

theorem entryFormat_length (entry : CredentialAuditEntry) :
    (entryFormat.write entry).length = entryHeaderBytes + entry.event.length := by
  change (Xdr.bigEndian 8 _ ++ (Xdr.bigEndian 4 _ ++ entry.event)).length = _
  simp only [List.length_append, length_bigEndian, entryHeaderBytes]
  omega

theorem entryFormat_read (bs : List UInt8) :
    entryFormat.read bs =
      if entryHeaderBytes ≤ bs.length then
        let len := ofBigEndian ((bs.drop 8).take 4)
        if (len ≠ 0 ∧ len ≤ maxAuditEventBytes) ∧ len ≤ (bs.drop entryHeaderBytes).length then
          some (⟨.ofNat (ofBigEndian (bs.take 8)), (bs.drop entryHeaderBytes).take len⟩,
            (bs.drop entryHeaderBytes).drop len)
        else none
      else none := by
  have hread : entryFormat.read bs = (((Format.word 8).pair (.sized 4 _)).read bs).map _ := rfl
  rw [hread, Format.read_pair, Format.read_word]
  unfold entryHeaderBytes
  by_cases hheader : 12 ≤ bs.length
  · have htime : 8 ≤ bs.length := by omega
    have hlen : 4 ≤ (bs.drop 8).length := by rw [List.length_drop]; omega
    simp only [Format.read_sized, Format.read_word, if_pos hheader, if_pos htime, if_pos hlen, Option.bind_some,
      List.drop_drop]
    split
    · rfl
    · rfl
  · rw [if_neg hheader]
    by_cases htime : 8 ≤ bs.length
    · have hlen : ¬ 4 ≤ (bs.drop 8).length := by rw [List.length_drop]; omega
      simp only [Format.read_sized, Format.read_word, if_pos htime, if_neg hlen, Option.bind_some, Option.bind_none,
        Option.map_none]
    · rw [if_neg htime, Option.bind_none, Option.map_none]

variable {payload : Bytes} {entries : List CredentialAuditEntry}

/-- The decoder reads an entry as its format does, and nothing traps. -/
theorem decodeEntry_eq {pos : Nat} (hpos : pos ≤ payload.len) :
    decodeEntry payload pos =
      match entryFormat.read (payload.data.drop pos) with
      | some (entry, rest) => .ok (entry, payload.len - rest.length)
      | none => .error (.error .archiveCorrupted) := by
  have hbytes := payload.length_le
  have hlen : (payload.data.drop pos).length = payload.len - pos := List.length_drop
  have hbound : payload.len ≤ u32Max := payload.length_le
  rw [entryFormat_read, hlen]
  by_cases hheader : payload.len - pos < entryHeaderBytes
  · simp only [decodeEntry, subU32_of_le _ hpos, except_ok_bind, if_pos hheader, if_neg (Nat.not_le.2 hheader)]
    rfl
  · have hfits : pos + 12 ≤ payload.len := by unfold entryHeaderBytes at hheader; omega
    have htime : readArray 8 payload pos = .ok ((payload.data.drop pos).take 8) := by
      rw [readArray, addU32_of_le _ (by omega), except_ok_bind, Bytes.slice_of_le _ (by omega)]
    have hsize : readArray 4 payload (pos + 8) = .ok (((payload.data.drop pos).drop 8).take 4) := by
      rw [readArray, addU32_of_le _ (by omega), except_ok_bind, Bytes.slice_of_le _ (by omega), List.drop_drop]
    have hskip : addU32 Failure.arithmetic pos 8 = .ok (pos + 8) := addU32_of_le _ (by omega)
    have hbody : addU32 Failure.arithmetic pos entryHeaderBytes = .ok (pos + 12) := addU32_of_le _ (by omega)
    simp only [decodeEntry, subU32_of_le _ hpos, except_ok_bind, if_neg hheader, if_pos (Nat.not_lt.1 hheader), htime,
      hskip, hsize, hbody, subU32_of_le Failure.arithmetic hfits]
    generalize ofBigEndian (((payload.data.drop pos).drop 8).take 4) = len
    rw [List.drop_drop, List.length_drop]
    unfold entryHeaderBytes
    by_cases hvalid : len = 0 ∨ maxAuditEventBytes < len
    · rw [if_pos hvalid, if_neg (by omega)]
      rfl
    · rw [if_neg hvalid]
      by_cases hleft : payload.len - (pos + 12) < len
      · rw [if_pos hleft, if_neg (by unfold Bytes.len at hleft; omega)]
        rfl
      · have hnext : addU32 Failure.arithmetic (pos + 12) len = .ok (pos + 12 + len) := addU32_of_le _ (by omega)
        rw [if_neg hleft, if_pos (by unfold Bytes.len at hleft; omega), hnext, except_ok_bind,
          Bytes.slice_of_le _ (by omega)]
        have hrest : payload.len - ((payload.data.drop (pos + 12)).drop len).length = pos + 12 + len := by
          rw [List.length_drop, List.length_drop]
          unfold Bytes.len at hfits hleft ⊢
          omega
        simp only [except_ok_bind, hrest]
        rfl

/-- An entry that is decoded is read off the rest of the payload, and the next one starts right after it. -/
theorem decodeEntry_read {pos next : Nat} {entry : CredentialAuditEntry}
    (h : decodeEntry payload pos = .ok (entry, next)) :
    entryFormat.read (payload.data.drop pos) = some (entry, payload.data.drop next) ∧ pos < next ∧
      next ≤ payload.len := by
  have hpos : pos ≤ payload.len := by
    obtain ⟨left, hleft, -⟩ := except_bind_ok h
    exact (subU32_ok hleft).1
  rw [decodeEntry_eq hpos] at h
  split at h
  case h_1 entry' rest hread =>
    cases h
    have hwritten := (entryFormat.of_read hread).2
    have hsuffix : rest <:+ payload.data := by
      refine .trans ?_ (List.drop_suffix pos payload.data)
      rw [hwritten]
      exact List.suffix_append _ _
    have hlen := congrArg List.length hwritten
    rw [List.length_append, entryFormat_length, List.length_drop] at hlen
    refine ⟨hread.trans (by rw [Bytes.len, ← List.suffix_iff_eq_drop.1 hsuffix]), ?_, Nat.sub_le _ _⟩
    unfold Bytes.len at hpos ⊢
    unfold entryHeaderBytes at hlen
    omega
  case h_2 => cases h

/-! ## The decoder -/

/-- The loop of `decode_entries`. -/
def decodeLoop (payload : Bytes) (pos : Nat) (entries : List CredentialAuditEntry) :
    Except Failure (List CredentialAuditEntry) :=
  if pos < payload.len then
    match _h : decodeEntry payload pos with
    | .error e => .error e
    | .ok (entry, next) => decodeLoop payload next (entries ++ [entry])
  else .ok entries
termination_by payload.len - pos
decreasing_by
  have hnext := (decodeEntry_read _h).2
  omega

def decodeEntries (payload : Bytes) (expectedCount : Nat) : Except Failure (List CredentialAuditEntry) := do
  let entries ← decodeLoop payload 0 []
  if entries.length ≠ expectedCount then throw (.error .archiveCorrupted)
  else return entries

theorem decodeLoop_eq {pos : Nat} (hpos : pos ≤ payload.len) (entries : List CredentialAuditEntry) :
    decodeLoop payload pos entries =
      match entryFormat.readAll (payload.data.drop pos) with
      | some rest => .ok (entries ++ rest)
      | none => .error (.error .archiveCorrupted) := by
  fun_induction decodeLoop payload pos entries with
  | case1 pos entries hlt e herror =>
    have hnone : entryFormat.read (payload.data.drop pos) = none ∧ e = .error .archiveCorrupted := by
      rw [decodeEntry_eq hpos] at herror
      split at herror
      case h_1 => cases herror
      case h_2 hread => cases herror; exact ⟨hread, rfl⟩
    rw [Format.readAll, if_neg (by simpa [List.drop_eq_nil_iff, Bytes.len] using hlt), hnone.1, hnone.2]
  | case2 pos entries hlt entry next hentry ih =>
    obtain ⟨hread, hadvance, hnext⟩ := decodeEntry_read hentry
    have hshorter : (payload.data.drop next).length < (payload.data.drop pos).length := by
      unfold Bytes.len at hlt
      rw [List.length_drop, List.length_drop]
      omega
    rw [ih hnext, Format.readAll.eq_def entryFormat (payload.data.drop pos),
      if_neg (by simpa [List.drop_eq_nil_iff, Bytes.len] using hlt), hread]
    dsimp only
    rw [if_pos hshorter]
    cases entryFormat.readAll (payload.data.drop next) with
    | none => rfl
    | some rest => simp
  | case3 pos entries hlt =>
    have hend : payload.data.drop pos = [] := List.drop_eq_nil_of_le (Nat.not_lt.1 hlt)
    rw [hend, Format.readAll, if_pos rfl]
    simp

/-! ## The encoder -/

theorem encodeEntry_eq {entry : CredentialAuditEntry} (hfits : entryFormat.Fits entry) (out : Bytes) :
    encodeEntry out entry = out.append .host (entryFormat.write entry) := by
  obtain ⟨hne, hle⟩ := (entryFormat_fits entry).1 hfits
  have hwrite : entryFormat.write entry =
      Xdr.bigEndian 8 entry.timestamp.toNat ++ (Xdr.bigEndian 4 entry.event.length ++ entry.event) := rfl
  rw [hwrite, ← Bytes.append_append]
  simp only [← Bytes.append_append]
  unfold encodeEntry
  rw [if_neg]
  rintro (hzero | hlong)
  · exact hne (List.length_eq_zero_iff.1 hzero)
  · exact Nat.not_le.2 hlong hle

theorem foldlM_encodeEntry (hfits : ∀ e ∈ entries, entryFormat.Fits e) (out : Bytes) :
    entries.foldlM encodeEntry out = out.append .host (entryFormat.writeAll entries) := by
  induction entries generalizing out with
  | nil =>
    have hlen : (out.data ++ []).length ≤ u32Max := by
      rw [List.append_nil]
      exact out.length_le
    rw [Format.writeAll_nil, Bytes.append_of_le _ hlen]
    exact congrArg Except.ok (Bytes.ext (List.append_nil _).symm)
  | cons entry entries ih =>
    rw [List.forall_mem_cons] at hfits
    rw [List.foldlM_cons, encodeEntry_eq hfits.1, Format.writeAll_cons, ← Bytes.append_append]
    congr 1
    funext out'
    exact ih hfits.2 out'

/-! ## The codec -/

def packedSize (entries : List CredentialAuditEntry) : Nat :=
  (entries.map fun entry => entryHeaderBytes + entry.event.length).sum

theorem length_writeAll (entries : List CredentialAuditEntry) :
    (entryFormat.writeAll entries).length = packedSize entries := by
  induction entries with
  | nil => rfl
  | cons entry entries ih =>
    rw [Format.writeAll_cons, List.length_append, entryFormat_length, ih, packedSize, packedSize, List.map_cons,
      List.sum_cons]

theorem encodeEntries_eq (hfits : ∀ e ∈ entries, entryFormat.Fits e) :
    encodeEntries entries =
      if h : (entryFormat.writeAll entries).length ≤ u32Max then .ok ⟨entryFormat.writeAll entries, h⟩
      else .error .host :=
  foldlM_encodeEntry hfits .empty

theorem decodeEntries_eq (payload : Bytes) (n : Nat) :
    decodeEntries payload n =
      match entryFormat.readAll payload.data with
      | some entries => if entries.length = n then .ok entries else .error (.error .archiveCorrupted)
      | none => .error (.error .archiveCorrupted) := by
  have hloop := decodeLoop_eq (Nat.zero_le payload.len) []
  rw [List.drop_zero] at hloop
  unfold decodeEntries
  rw [hloop]
  cases entryFormat.readAll payload.data with
  | none => rfl
  | some entries =>
    rw [except_ok_bind, List.nil_append]
    dsimp only
    by_cases hcount : entries.length = n
    · rw [if_neg (not_not_intro hcount), if_pos hcount]
      rfl
    · rw [if_pos hcount, if_neg hcount]
      rfl

/-- What decodes is the expected number of entries, each in its format, up to the end of the payload. -/
theorem decodeEntries_eq_ok_iff {n : Nat} :
    decodeEntries payload n = .ok entries ↔
      ((∀ e ∈ entries, entryFormat.Fits e) ∧ payload.data = entryFormat.writeAll entries) ∧
        entries.length = n := by
  have hne : ∀ entry, entryFormat.Fits entry → entryFormat.write entry ≠ [] := by
    intro entry _ hnil
    have hlen := entryFormat_length entry
    rw [hnil, entryHeaderBytes, List.length_nil] at hlen
    omega
  rw [decodeEntries_eq, ← Format.readAll_eq_some_iff hne]
  cases entryFormat.readAll payload.data with
  | none => simp
  | some found =>
    dsimp only
    split
    case isTrue hcount =>
      rw [Except.ok.injEq, Option.some.injEq]
      refine ⟨fun h => ⟨h, h ▸ hcount⟩, And.left⟩
    case isFalse hcount =>
      refine iff_of_false (fun h => by cases h) ?_
      rintro ⟨h, hlen⟩
      cases h
      exact hcount hlen

/-- Decoding gives back what was encoded, unless it is too long to be a byte
string; whatever decodes was encoded so; and decoding never traps. -/
theorem audit_codec_exact :
    (∀ entries : List CredentialAuditEntry,
      (∀ e ∈ entries, e.event ≠ [] ∧ e.event.length ≤ maxAuditEventBytes) →
        (encodeEntries entries >>= fun payload => decodeEntries payload entries.length) =
          if packedSize entries ≤ u32Max then .ok entries else .error .host) ∧
    (∀ (payload : Bytes) (n : Nat) (entries : List CredentialAuditEntry), decodeEntries payload n = .ok entries →
      encodeEntries entries = .ok payload ∧ entries.length = n) ∧
    ∀ (payload : Bytes) (n : Nat), (∃ entries, decodeEntries payload n = .ok entries) ∨
      decodeEntries payload n = .error (.error .archiveCorrupted) := by
  refine ⟨fun entries hvalid => ?_, fun payload n entries hdecode => ?_, fun payload n => ?_⟩
  · have hfits : ∀ e ∈ entries, entryFormat.Fits e := fun e he => (entryFormat_fits e).2 (hvalid e he)
    rw [encodeEntries_eq hfits, ← length_writeAll]
    by_cases hsize : (entryFormat.writeAll entries).length ≤ u32Max
    · rw [dif_pos hsize, except_ok_bind, if_pos hsize]
      exact decodeEntries_eq_ok_iff.2 ⟨⟨hfits, rfl⟩, rfl⟩
    · rw [dif_neg hsize, except_error_bind, if_neg hsize]
  · obtain ⟨⟨hfits, hdata⟩, hlen⟩ := decodeEntries_eq_ok_iff.1 hdecode
    have hsize : (entryFormat.writeAll entries).length ≤ u32Max := hdata ▸ payload.length_le
    rw [encodeEntries_eq hfits, dif_pos hsize]
    exact ⟨congrArg Except.ok (Bytes.ext hdata.symm), hlen⟩
  · rw [decodeEntries_eq]
    split
    · split
      · exact .inl ⟨_, rfl⟩
      · exact .inr rfl
    · exact .inr rfl

end QuorumCredit
