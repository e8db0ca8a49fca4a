import QuorumCredit.Frames
import QuorumCredit.Host.Sha256
import QuorumCredit.Host.Xdr
/-!
# The cross-chain relay

The relay pipeline of `lib.rs`: events emitted for another chain and
acknowledged by it, and events of another chain relayed here under an
attestation of its key. Its storage entries are its own: no other entry point
reads or writes them. The host's serialization, SHA-256 and Ed25519 are
parameters.
-/

open Host Function

namespace QuorumCredit

structure RelayEvent where
  sourceChain : Nat
  destChain : Nat
  eventType : String
  payload : List UInt8
  seq : Nat
deriving DecidableEq, Repr

structure RelayAttestation where
  signature : Vector UInt8 64
  nonce : Nat
  timestamp : Nat
deriving DecidableEq, Repr

/-- The storage entries of the relay. -/
structure Relay where
  relayPublicKey : Nat → Option (Vector UInt8 32)
  relayNonceUsed : Nat → Nat → Bool
  relayEventProcessed : Nat → Nat → Bool
  outboundRelayEvent : Nat → Nat → Option RelayEvent
  outboundRelaySeq : Nat → Nat
  lastAcknowledgedRelaySeq : Nat → Nat

def Relay.empty : Relay :=
  { relayPublicKey := fun _ => none, relayNonceUsed := fun _ _ => false, relayEventProcessed := fun _ _ => false
    outboundRelayEvent := fun _ _ => none, outboundRelaySeq := fun _ => 0, lastAcknowledgedRelaySeq := fun _ => 0 }

/-- The host functions behind an attestation. -/
structure Attesting where
  toXdr : RelayEvent × Nat × Nat → List UInt8
  sha256 : List UInt8 → Vector UInt8 32
  ed25519Verify : Vector UInt8 32 → List UInt8 → Vector UInt8 64 → Bool

/-! ## Entry points -/

def setRelayKey (adminSigners : List Address) (sourceChain : Nat) (publicKey : Vector UInt8 32) :
    Contract Relay Unit := do
  requireAdminApproval adminSigners
  require (sourceChain ≠ 0) (.error .invalidRelayChain)
  alter fun r => { r with relayPublicKey := update r.relayPublicKey sourceChain (some publicKey) }

def relayEmit (adminSigners : List Address) (destChain : Nat) (eventType : String) (payload : List UInt8) :
    Contract Relay Nat := do
  requireAdminApproval adminSigners
  require (destChain ≠ 0) (.error .invalidRelayChain)
  let currentSeq ← look (·.outboundRelaySeq destChain)
  let nextSeq ← u64 (.error .arithmeticError) (currentSeq + 1)
  let event : RelayEvent := { sourceChain := 0, destChain, eventType, payload, seq := nextSeq }
  alter fun r => { r with outboundRelayEvent := update r.outboundRelayEvent destChain
                            (update (r.outboundRelayEvent destChain) nextSeq (some event)) }
  alter fun r => { r with outboundRelaySeq := update r.outboundRelaySeq destChain nextSeq }
  return nextSeq

def acknowledgeRelay (adminSigners : List Address) (destChain upToSeq : Nat) : Contract Relay Unit := do
  requireAdminApproval adminSigners
  require (destChain ≠ 0) (.error .invalidRelayChain)
  let lastAcked ← look (·.lastAcknowledgedRelaySeq destChain)
  require (lastAcked ≤ upToSeq) (.error .relayAckRegression)
  alter fun r => { r with lastAcknowledgedRelaySeq := update r.lastAcknowledgedRelaySeq destChain upToSeq }

section

variable (host : Attesting)

def relayAttestationMessage (event : RelayEvent) (nonce timestamp : Nat) : List UInt8 :=
  (host.sha256 (host.toXdr (event, nonce, timestamp))).toList

/-- The freshness window of `relay_message`. -/
def requireFresh (timestamp : Nat) : Contract Relay Unit := do
  let ctx ← ask
  if ctx.now < timestamp then require (timestamp - ctx.now ≤ 60) (.error .relayEventFromFuture)
  else require (ctx.now - timestamp ≤ 600) (.error .relayEventExpired)

def relayMessage (event : RelayEvent) (attestation : RelayAttestation) : Contract Relay Unit := do
  require (event.sourceChain ≠ 0) (.error .invalidRelayChain)
  let publicKey ← orFail (← look (·.relayPublicKey event.sourceChain)) (.error .relayKeyNotConfigured)
  let processed ← look (·.relayEventProcessed event.sourceChain event.seq)
  require (processed = false) (.error .relayEventAlreadyProcessed)
  let nonceUsed ← look (·.relayNonceUsed event.sourceChain attestation.nonce)
  require (nonceUsed = false) (.error .relayReplayDetected)
  requireFresh attestation.timestamp
  let message := relayAttestationMessage host event attestation.nonce attestation.timestamp
  require (host.ed25519Verify publicKey message attestation.signature = true) .signature
  alter fun r => { r with relayEventProcessed := update r.relayEventProcessed event.sourceChain
                            (update (r.relayEventProcessed event.sourceChain) event.seq true) }
  alter fun r => { r with relayNonceUsed := update r.relayNonceUsed event.sourceChain
                            (update (r.relayNonceUsed event.sourceChain) attestation.nonce true) }

inductive RelayOp where
  | setRelayKey (adminSigners : List Address) (sourceChain : Nat) (publicKey : Vector UInt8 32)
  | relayEmit (adminSigners : List Address) (destChain : Nat) (eventType : String) (payload : List UInt8)
  | relayMessage (event : RelayEvent) (attestation : RelayAttestation)
  | acknowledgeRelay (adminSigners : List Address) (destChain upToSeq : Nat)

def RelayOp.run : RelayOp → Contract Relay Unit
  | .setRelayKey signers chain key => QuorumCredit.setRelayKey signers chain key
  | .relayEmit signers chain eventType payload => do
    let _ ← QuorumCredit.relayEmit signers chain eventType payload
  | .relayMessage event attestation => QuorumCredit.relayMessage host event attestation
  | .acknowledgeRelay signers chain seq => QuorumCredit.acknowledgeRelay signers chain seq

/-! ## Runs -/

structure RelayState where
  world : World
  relay : Relay

/-- A call with its signatures, or whatever happens elsewhere, which the relay sees as another world. -/
inductive RelayMove where
  | call (signers : List Address) (op : RelayOp)
  | elsewhere (world : World)

/-- The storage after a call that goes through. -/
def RelayState.exec (s : RelayState) (signers : List Address) (op : RelayOp) : Option Relay :=
  match op.run host ⟨s.world, signers⟩ s.relay with
  | .ok (_, r) => some r
  | .error _ => none

/-- The state after the move; a refused call changes nothing. -/
def RelayState.after (s : RelayState) : RelayMove → RelayState
  | .call signers op => { s with relay := (s.exec host signers op).getD s.relay }
  | .elsewhere world => { s with world }

inductive RelayStep : RelayState → RelayMove → RelayState → Prop
  | call {s signers op} : RelayStep s (.call signers op) (s.after host (.call signers op))
  | elsewhere {s world} : s.world.now ≤ world.now → RelayStep s (.elsewhere world) (s.after host (.elsewhere world))

/-! ## What a call does -/

/-- What a call that goes through found and did. -/
inductive RelayEffect (w : World) (r : Relay) : RelayOp → Relay → Prop
  | keyed {signers chain key} :
    RelayEffect w r (.setRelayKey signers chain key)
      { r with relayPublicKey := update r.relayPublicKey chain (some key) }
  | emitted {signers chain eventType payload seq} (hseq : seq = r.outboundRelaySeq chain + 1) :
    RelayEffect w r (.relayEmit signers chain eventType payload)
      { r with
        outboundRelayEvent := update r.outboundRelayEvent chain
          (update (r.outboundRelayEvent chain) seq (some ⟨0, chain, eventType, payload, seq⟩))
        outboundRelaySeq := update r.outboundRelaySeq chain seq }
  | relayed {event attestation}
    (hseq : r.relayEventProcessed event.sourceChain event.seq = false)
    (hnonce : r.relayNonceUsed event.sourceChain attestation.nonce = false)
    (hpast : w.now ≤ attestation.timestamp + 600) (hfuture : attestation.timestamp ≤ w.now + 60) :
    RelayEffect w r (.relayMessage event attestation)
      { r with
        relayEventProcessed := update r.relayEventProcessed event.sourceChain
          (update (r.relayEventProcessed event.sourceChain) event.seq true)
        relayNonceUsed := update r.relayNonceUsed event.sourceChain
          (update (r.relayNonceUsed event.sourceChain) attestation.nonce true) }
  | acknowledged {signers chain seq} (hseq : r.lastAcknowledgedRelaySeq chain ≤ seq) :
    RelayEffect w r (.acknowledgeRelay signers chain seq)
      { r with lastAcknowledgedRelaySeq := update r.lastAcknowledgedRelaySeq chain seq }

/-- Writing one entry of a table with two keys. -/
theorem update_entry {α : Type} (f : Nat → Nat → α) (chain n : Nat) (a : α) (chain' n' : Nat) :
    update f chain (update (f chain) n a) chain' n' = if chain' = chain ∧ n' = n then a else f chain' n' := by
  by_cases hc : chain' = chain
  · subst hc
    simp [update_apply]
  · simp [hc]

theorem yields_requireFresh {ctx : Context} {r : Relay} (timestamp : Nat) :
    Yields (requireFresh timestamp) ctx r fun _ r' =>
      r' = r ∧ ctx.now ≤ timestamp + 600 ∧ timestamp ≤ ctx.now + 60 := by
  unfold requireFresh
  simp only [yields_steps, yields_ite]
  refine ⟨fun hfuture hnear => ⟨trivial, ?_, ?_⟩, fun hpast hrecent => ⟨trivial, ?_, ?_⟩⟩
  all_goals omega

theorem yields_relayOp (op : RelayOp) (ctx : Context) (r : Relay) :
    Yields (op.run host) ctx r fun _ r' => RelayEffect ctx.toWorld r op r' := by
  cases op with
  | setRelayKey signers chain key =>
    simp only [RelayOp.run, setRelayKey, yields_steps]
    refine (yields_requireAdminApproval signers).mono ?_
    rintro _ _ rfl _
    exact .keyed
  | relayEmit signers chain eventType payload =>
    simp only [RelayOp.run, relayEmit, yields_steps, yields_u64]
    refine (yields_requireAdminApproval signers).mono ?_
    rintro _ _ rfl _ _
    exact .emitted rfl
  | relayMessage event attestation =>
    simp only [RelayOp.run, relayMessage, yields_steps]
    intro _ key _ hseq hnonce
    refine (yields_requireFresh _).mono ?_
    rintro _ _ ⟨rfl, hpast, hfuture⟩ _
    exact .relayed hseq hnonce hpast hfuture
  | acknowledgeRelay signers chain seq =>
    simp only [RelayOp.run, acknowledgeRelay, yields_steps]
    refine (yields_requireAdminApproval signers).mono ?_
    rintro _ _ rfl _ hseq
    exact .acknowledged hseq

theorem RelayState.exec_effect {s : RelayState} {signers : List Address} {op : RelayOp} {r : Relay}
    (h : s.exec host signers op = some r) : RelayEffect s.world s.relay op r := by
  unfold RelayState.exec at h
  split at h
  case h_1 u r' hrun =>
    cases h
    exact yields_relayOp host op _ _ _ _ hrun
  case h_2 => cases h

/-- A step leaves the storage alone, or is a call that went through. -/
theorem RelayStep.relay_cases {s s' : RelayState} {m : RelayMove} (hst : RelayStep host s m s') :
    ((∀ signers op, m = .call signers op → s.exec host signers op = none) ∧ s'.relay = s.relay) ∨
      ∃ signers op, m = .call signers op ∧ s.exec host signers op = some s'.relay ∧
        RelayEffect s.world s.relay op s'.relay := by
  cases hst with
  | @call signers op =>
    cases he : s.exec host signers op with
    | none =>
      refine .inl ⟨?_, by simp [RelayState.after, he]⟩
      rintro _ _ ⟨⟩
      exact he
    | some r =>
      have hr : (s.after host (.call signers op)).relay = r := by simp [RelayState.after, he]
      exact .inr ⟨signers, op, rfl, by rw [hr, he], by rw [hr]; exact s.exec_effect host he⟩
  | elsewhere =>
    refine .inl ⟨?_, rfl⟩
    rintro _ _ ⟨⟩

/-! ## Messages are relayed once -/

/-- A message that was accepted, and when. -/
structure Delivery where
  event : RelayEvent
  attestation : RelayAttestation
  acceptedAt : Nat

namespace Delivery

/-- Which event of the source chain it is. -/
def eventKey (d : Delivery) : Nat × Nat := (d.event.sourceChain, d.event.seq)

def nonceKey (d : Delivery) : Nat × Nat := (d.event.sourceChain, d.attestation.nonce)

end Delivery

def delivery (s : RelayState) : RelayMove → Option Delivery
  | .call signers (.relayMessage event attestation) =>
    (s.exec host signers (.relayMessage event attestation)).map fun _ => ⟨event, attestation, s.world.now⟩
  | _ => none

/-- The messages accepted in a history, newest first. -/
def deliveries (h : List (RelayState × RelayMove)) : List Delivery := h.filterMap fun e => delivery host e.1 e.2

variable {host}

/-- What an accepted message found, and the marks it left. -/
structure Relayed (s s' : RelayState) (d : Delivery) : Prop where
  acceptedAt : d.acceptedAt = s.world.now
  past : s.world.now ≤ d.attestation.timestamp + 600
  future : d.attestation.timestamp ≤ s.world.now + 60
  eventNew : s.relay.relayEventProcessed d.event.sourceChain d.event.seq = false
  nonceNew : s.relay.relayNonceUsed d.event.sourceChain d.attestation.nonce = false
  eventMarked : s'.relay.relayEventProcessed d.event.sourceChain d.event.seq = true
  nonceMarked : s'.relay.relayNonceUsed d.event.sourceChain d.attestation.nonce = true

theorem RelayStep.delivered {s s' : RelayState} {m : RelayMove} {d : Delivery} (hst : RelayStep host s m s')
    (hd : delivery host s m = some d) : Relayed s s' d := by
  unfold delivery at hd
  split at hd
  case h_1 signers event attestation =>
    obtain ⟨r, hexec, rfl⟩ := Option.map_eq_some_iff.1 hd
    rcases hst.relay_cases with ⟨hnone, -⟩ | ⟨_, _, hm, -, he⟩
    · rw [hnone _ _ rfl] at hexec
      cases hexec
    · cases hm
      generalize hr' : s'.relay = r' at he
      cases he with
      | relayed hseq hnonce hpast hfuture =>
        exact ⟨rfl, hpast, hfuture, hseq, hnonce, by simp [hr'], by simp [hr']⟩
  case h_2 => cases hd

/-- No call clears a mark of the replay stores. -/
theorem RelayStep.marks_stay {s s' : RelayState} {m : RelayMove} (hst : RelayStep host s m s') (chain n : Nat) :
    (s.relay.relayEventProcessed chain n = true → s'.relay.relayEventProcessed chain n = true) ∧
      (s.relay.relayNonceUsed chain n = true → s'.relay.relayNonceUsed chain n = true) := by
  rcases hst.relay_cases with ⟨-, hsame⟩ | ⟨_, op, -, -, he⟩
  · rw [hsame]
    exact ⟨id, id⟩
  · generalize s'.relay = r' at he
    cases he with
    | keyed => exact ⟨id, id⟩
    | emitted => exact ⟨id, id⟩
    | acknowledged => exact ⟨id, id⟩
    | relayed =>
      constructor
      · intro h
        simp [update_entry, h]
      · intro h
        simp [update_entry, h]

theorem events_marked : Marks (RelayStep host) (fun s m => (delivery host s m).map Delivery.eventKey)
    fun s k => s.relay.relayEventProcessed k.1 k.2 = true where
  fresh hst hk := by
    obtain ⟨d, hd, rfl⟩ := Option.map_eq_some_iff.1 hk
    simp [Delivery.eventKey, (hst.delivered hd).eventNew]
  mark hst hk := by
    obtain ⟨d, hd, rfl⟩ := Option.map_eq_some_iff.1 hk
    exact (hst.delivered hd).eventMarked
  keep hst := (hst.marks_stay _ _).1

theorem nonces_marked : Marks (RelayStep host) (fun s m => (delivery host s m).map Delivery.nonceKey)
    fun s k => s.relay.relayNonceUsed k.1 k.2 = true where
  fresh hst hk := by
    obtain ⟨d, hd, rfl⟩ := Option.map_eq_some_iff.1 hk
    simp [Delivery.nonceKey, (hst.delivered hd).nonceNew]
  mark hst hk := by
    obtain ⟨d, hd, rfl⟩ := Option.map_eq_some_iff.1 hk
    exact (hst.delivered hd).nonceMarked
  keep hst := (hst.marks_stay _ _).2

/-- Over every run, keys changed in between or not, no event and no nonce of a
chain is accepted twice, and what is accepted is fresh. -/
theorem relayed_once {s₀ s : RelayState} {h : List (RelayState × RelayMove)} (hr : Run (RelayStep host) s₀ h s) :
    ((deliveries host h).map Delivery.eventKey).Nodup ∧ ((deliveries host h).map Delivery.nonceKey).Nodup ∧
      ∀ d ∈ deliveries host h,
        d.acceptedAt ≤ d.attestation.timestamp + 600 ∧ d.attestation.timestamp ≤ d.acceptedAt + 60 := by
  refine ⟨?_, ?_, fun d hd => ?_⟩
  · rw [deliveries, List.map_filterMap]
    exact events_marked.nodup hr
  · rw [deliveries, List.map_filterMap]
    exact nonces_marked.nodup hr
  · obtain ⟨⟨t, m⟩, hmem, haccepted⟩ := List.mem_filterMap.1 hd
    obtain ⟨post, pre, rfl⟩ := List.append_of_mem hmem
    obtain ⟨-, t', hst, -⟩ := hr.split
    have he := hst.delivered haccepted
    rw [he.acceptedAt]
    exact ⟨he.past, he.future⟩

end

/-! ### One message under each of two keys -/

def relayXdr : RelayEvent × Nat × Nat → List UInt8
  | (event, nonce, timestamp) =>
    Xdr.vec [Xdr.struct [("dest_chain", Xdr.u32 event.destChain), ("event_type", Xdr.symbol event.eventType),
      ("payload", Xdr.bytes event.payload), ("seq", Xdr.u64 event.seq), ("source_chain", Xdr.u32 event.sourceChain)],
      Xdr.u64 nonce, Xdr.u64 timestamp]

def firstKey : Vector UInt8 32 :=
  #v[215, 90, 152, 1, 130, 177, 10, 183, 213, 75, 254, 211, 201, 100, 7, 58, 14, 225, 114, 243, 218, 166, 35, 37, 175, 2,
    26, 104, 247, 7, 81, 26]

def secondKey : Vector UInt8 32 :=
  #v[61, 64, 23, 195, 232, 67, 137, 90, 146, 183, 10, 167, 77, 27, 126, 188, 156, 152, 44, 207, 46, 196, 150, 140, 192,
    205, 85, 241, 42, 244, 102, 12]

def firstEvent : RelayEvent := ⟨7, 2, "test", [1, 2, 3], 1⟩

def secondEvent : RelayEvent := ⟨7, 2, "test", [1, 2, 3], 2⟩

/-- The signature of the first event under the first key, with nonce 42 at the start. -/
def firstSignature : Vector UInt8 64 :=
  #v[0, 159, 234, 22, 74, 16, 214, 166, 181, 19, 181, 244, 196, 35, 102, 175, 59, 164, 95, 65, 111, 89, 152, 98, 5, 68, 13,
    229, 142, 166, 59, 46, 21, 182, 215, 113, 191, 5, 217, 138, 184, 96, 108, 244, 10, 254, 233, 129, 240, 251, 42, 167,
    123, 1, 196, 108, 224, 202, 182, 159, 65, 190, 88, 4]

/-- The signature of the second under the second key, with nonce 43 and 100 seconds later. -/
def secondSignature : Vector UInt8 64 :=
  #v[91, 219, 150, 183, 71, 107, 196, 220, 145, 188, 126, 53, 122, 105, 54, 223, 0, 83, 254, 45, 94, 164, 221, 230, 8, 98,
    140, 179, 164, 17, 236, 141, 10, 235, 26, 140, 149, 183, 41, 165, 39, 206, 169, 214, 16, 62, 254, 38, 203, 178, 221,
    238, 28, 19, 76, 159, 134, 23, 9, 121, 11, 2, 196, 10]

/-- Ed25519 on the signatures of the two messages, under the digests they were made over. -/
def knownSignature (key : Vector UInt8 32) (message : List UInt8) (signature : Vector UInt8 64) : Bool :=
  (key.toList, message, signature.toList) ∈
    [(firstKey.toList, [181, 189, 16, 43, 96, 125, 217, 175, 65, 38, 233, 105, 6, 107, 43, 196, 70, 37, 212, 165, 210,
        216, 57, 37, 161, 92, 147, 88, 232, 114, 159, 97], firstSignature.toList),
      (secondKey.toList, [145, 0, 171, 221, 213, 195, 153, 187, 17, 171, 120, 197, 156, 246, 162, 201, 130, 144, 119, 47,
        12, 218, 118, 2, 180, 173, 192, 131, 193, 122, 95, 183], secondSignature.toList)]

def sampleAttesting : Attesting := ⟨relayXdr, Sha256.digest, knownSignature⟩

/-- The first message is refused when it comes again, also once the key is the
second; the second message is accepted 100 seconds later. -/
theorem relayed_once_twoKeys :
    ∃ h s, Run (RelayStep sampleAttesting) ⟨sampleWorld, .empty⟩ h s ∧
      (deliveries sampleAttesting h).map Delivery.eventKey = [(7, 2), (7, 1)] ∧
      ((deliveries sampleAttesting h).map Delivery.eventKey).Nodup ∧
      ((deliveries sampleAttesting h).map Delivery.nonceKey).Nodup ∧
      ∀ d ∈ deliveries sampleAttesting h,
        d.acceptedAt ≤ d.attestation.timestamp + 600 ∧ d.attestation.timestamp ≤ d.acceptedAt + 60 := by
  have hstart : Run (RelayStep sampleAttesting) ⟨sampleWorld, .empty⟩ [] ⟨sampleWorld, .empty⟩ := .nil
  have hr := hstart
    |>.snoc (@RelayStep.call _ _ [1] (.setRelayKey [1] 7 firstKey))
    |>.snoc (@RelayStep.call _ _ [] (.relayMessage firstEvent ⟨firstSignature, 42, 1000000⟩))
    |>.snoc (@RelayStep.call _ _ [] (.relayMessage firstEvent ⟨firstSignature, 42, 1000000⟩))
    |>.snoc (@RelayStep.call _ _ [1] (.setRelayKey [1] 7 secondKey))
    |>.snoc (@RelayStep.call _ _ [] (.relayMessage firstEvent ⟨firstSignature, 42, 1000000⟩))
    |>.snoc (@RelayStep.elsewhere _ _ { sampleWorld with now := 1000100 } (by decide +kernel))
    |>.snoc (@RelayStep.call _ _ [] (.relayMessage secondEvent ⟨secondSignature, 43, 1000100⟩))
  exact ⟨_, _, hr, by decide +kernel, relayed_once hr⟩

/-! ## Events out, acknowledgements back -/

section

variable (host : Attesting)

/-- The event a call emits, with the number it got. -/
def emission (s : RelayState) : RelayMove → Option RelayEvent
  | .call signers (.relayEmit adminSigners chain eventType payload) =>
    (s.exec host signers (.relayEmit adminSigners chain eventType payload)).map fun r =>
      ⟨0, chain, eventType, payload, r.outboundRelaySeq chain⟩
  | _ => none

/-- The events emitted in a history, newest first. -/
def emissions (h : List (RelayState × RelayMove)) : List RelayEvent := h.filterMap fun e => emission host e.1 e.2

theorem emissions_cons (s : RelayState) (m : RelayMove) (h : List (RelayState × RelayMove)) :
    emissions host ((s, m) :: h) = (emission host s m).toList ++ emissions host h := by
  cases hm : emission host s m with
  | none => simp [emissions, hm]
  | some e => simp [emissions, hm]

theorem emissions_append (post pre : List (RelayState × RelayMove)) :
    emissions host (post ++ pre) = emissions host post ++ emissions host pre := List.filterMap_append

/-- The chain and the number an accepted acknowledgement names. -/
def acknowledgement (s : RelayState) : RelayMove → Option (Nat × Nat)
  | .call signers (.acknowledgeRelay adminSigners chain seq) =>
    (s.exec host signers (.acknowledgeRelay adminSigners chain seq)).map fun _ => (chain, seq)
  | _ => none

def RelayEvent.outboundKey (e : RelayEvent) : Nat × Nat := (e.destChain, e.seq)

variable {host}

variable {s s' : RelayState} {m : RelayMove}

/-- A step emits nothing and leaves the events out alone, or stores one under the next number. -/
theorem RelayStep.outbound_cases (hst : RelayStep host s m s') :
    (emission host s m = none ∧ s'.relay.outboundRelayEvent = s.relay.outboundRelayEvent ∧
      s'.relay.outboundRelaySeq = s.relay.outboundRelaySeq) ∨
    ∃ e, emission host s m = some e ∧ e.seq = s.relay.outboundRelaySeq e.destChain + 1 ∧
      s'.relay.outboundRelayEvent = update s.relay.outboundRelayEvent e.destChain
        (update (s.relay.outboundRelayEvent e.destChain) e.seq (some e)) ∧
      s'.relay.outboundRelaySeq = update s.relay.outboundRelaySeq e.destChain e.seq := by
  rcases hst.relay_cases with ⟨hnone, hsame⟩ | ⟨signers, op, rfl, hexec, he⟩
  · refine .inl ⟨?_, by rw [hsame], by rw [hsame]⟩
    unfold emission
    split
    · rw [hnone _ _ rfl, Option.map_none]
    · rfl
  · generalize s'.relay = r' at hexec he
    cases he with
    | keyed => exact .inl ⟨rfl, rfl, rfl⟩
    | relayed => exact .inl ⟨rfl, rfl, rfl⟩
    | acknowledged => exact .inl ⟨rfl, rfl, rfl⟩
    | @emitted _ chain eventType payload seq hseq =>
      refine .inr ⟨⟨0, chain, eventType, payload, seq⟩, ?_, hseq, rfl, rfl⟩
      simp [emission, hexec]

/-- A step leaves the acknowledged numbers alone, or raises the one it names. -/
theorem RelayStep.acknowledged_cases (hst : RelayStep host s m s') :
    (acknowledgement host s m = none ∧ s'.relay.lastAcknowledgedRelaySeq = s.relay.lastAcknowledgedRelaySeq) ∨
    ∃ chain seq, acknowledgement host s m = some (chain, seq) ∧ s.relay.lastAcknowledgedRelaySeq chain ≤ seq ∧
      s'.relay.lastAcknowledgedRelaySeq = update s.relay.lastAcknowledgedRelaySeq chain seq ∧
      s'.relay.outboundRelaySeq = s.relay.outboundRelaySeq := by
  rcases hst.relay_cases with ⟨hnone, hsame⟩ | ⟨signers, op, rfl, hexec, he⟩
  · refine .inl ⟨?_, by rw [hsame]⟩
    unfold acknowledgement
    split
    · rw [hnone _ _ rfl, Option.map_none]
    · rfl
  · generalize s'.relay = r' at hexec he
    cases he with
    | keyed => exact .inl ⟨rfl, rfl⟩
    | relayed => exact .inl ⟨rfl, rfl⟩
    | emitted => exact .inl ⟨rfl, rfl⟩
    | @acknowledged _ chain seq hseq =>
      refine .inr ⟨chain, seq, ?_, hseq, rfl, rfl⟩
      simp [acknowledgement, hexec]

theorem RelayStep.counter_le (hst : RelayStep host s m s') (chain : Nat) :
    s.relay.outboundRelaySeq chain ≤ s'.relay.outboundRelaySeq chain := by
  rcases hst.outbound_cases with ⟨-, -, hsame⟩ | ⟨e, -, hseq, -, hcounter⟩
  · rw [hsame]
  · rw [hcounter, update_apply]
    split
    case isTrue hchain =>
      rw [hchain]
      omega
    case isFalse => exact Nat.le_refl _

theorem RelayStep.acked_le (hst : RelayStep host s m s') (chain : Nat) :
    s.relay.lastAcknowledgedRelaySeq chain ≤ s'.relay.lastAcknowledgedRelaySeq chain := by
  rcases hst.acknowledged_cases with ⟨-, hsame⟩ | ⟨_, seq, -, hseq, hacked, -⟩
  · rw [hsame]
  · rw [hacked, update_apply]
    split
    case isTrue hchain =>
      rw [hchain]
      exact hseq
    case isFalse => exact Nat.le_refl _

/-- Numbers up to the counter are taken. -/
theorem emissions_marked : Marks (RelayStep host) (fun s m => (emission host s m).map RelayEvent.outboundKey)
    fun s k => k.2 ≤ s.relay.outboundRelaySeq k.1 where
  fresh hst hk := by
    obtain ⟨e, he, rfl⟩ := Option.map_eq_some_iff.1 hk
    rcases hst.outbound_cases with ⟨hnone, -⟩ | ⟨e', he', hseq, -⟩
    · rw [hnone] at he
      cases he
    · obtain rfl := Option.some.inj (he.symm.trans he')
      simp [RelayEvent.outboundKey, hseq]
  mark hst hk := by
    obtain ⟨e, he, rfl⟩ := Option.map_eq_some_iff.1 hk
    rcases hst.outbound_cases with ⟨hnone, -⟩ | ⟨e', he', -, -, hcounter⟩
    · rw [hnone] at he
      cases he
    · obtain rfl := Option.some.inj (he.symm.trans he')
      simp [RelayEvent.outboundKey, hcounter]
  keep hst hk := Nat.le_trans hk (hst.counter_le _)

/-- The table holds the events of the history, numbered from 1 to the counter. -/
structure Outbound (host : Attesting) (h : List (RelayState × RelayMove)) (s : RelayState) : Prop where
  numbered : ∀ chain n, (s.relay.outboundRelayEvent chain n).isSome = true ↔ 1 ≤ n ∧ n ≤ s.relay.outboundRelaySeq chain
  stored : ∀ chain n e, s.relay.outboundRelayEvent chain n = some e ↔
    e ∈ emissions host h ∧ e.destChain = chain ∧ e.seq = n

theorem Outbound.start (world : World) : Outbound host [] ⟨world, .empty⟩ := by
  refine ⟨fun chain n => ?_, fun chain n e => ?_⟩
  · simp [Relay.empty]
    omega
  · simp [Relay.empty, emissions]

theorem Outbound.step {h : List (RelayState × RelayMove)} (hi : Outbound host h s) (hst : RelayStep host s m s') :
    Outbound host ((s, m) :: h) s' := by
  rcases hst.outbound_cases with ⟨hnone, hevents, hcounter⟩ | ⟨new, hnew, hseq, hevents, hcounter⟩
  · refine ⟨fun chain n => ?_, fun chain n e => ?_⟩
    · rw [hevents, hcounter]
      exact hi.numbered chain n
    · rw [hevents, emissions_cons, hnone]
      exact hi.stored chain n e
  · -- nothing is stored under the next number yet
    have hunused : s.relay.outboundRelayEvent new.destChain new.seq = none := by
      rw [← Option.not_isSome_iff_eq_none, hi.numbered, hseq]
      omega
    refine ⟨fun chain n => ?_, fun chain n e => ?_⟩
    · have hbefore := hi.numbered chain n
      rw [hevents, hcounter, update_entry, update_apply]
      by_cases hchain : chain = new.destChain
      · subst hchain
        by_cases hn : n = new.seq
        · simp only [hn, and_self, if_true, Option.isSome_some, true_iff]
          omega
        · rw [if_neg (by simp [hn]), if_pos rfl, hbefore, hseq]
          omega
      · rw [if_neg (by simp [hchain]), if_neg hchain, hbefore]
    · have hbefore := hi.stored chain n e
      rw [hevents, update_entry, emissions_cons, hnew, Option.toList_some, List.singleton_append,
        List.mem_cons]
      split
      case isTrue hkey =>
        obtain ⟨rfl, rfl⟩ := hkey
        rw [hunused] at hbefore
        constructor
        · intro heq
          cases heq
          exact ⟨.inl rfl, rfl, rfl⟩
        · rintro ⟨rfl | hmem, hchain, hn⟩
          · rfl
          · cases hbefore.2 ⟨hmem, hchain, hn⟩
      case isFalse hkey =>
        rw [hbefore]
        constructor
        · rintro ⟨hmem, hchain, hn⟩
          exact ⟨.inr hmem, hchain, hn⟩
        · rintro ⟨rfl | hmem, hchain, hn⟩
          · exact absurd ⟨hchain.symm, hn.symm⟩ hkey
          · exact ⟨hmem, hchain, hn⟩

theorem outbound_of_run {world : World} {h : List (RelayState × RelayMove)}
    (hr : Run (RelayStep host) ⟨world, .empty⟩ h s) : Outbound host h s := by
  induction hr with
  | nil => exact .start world
  | snoc _ hst ih => exact ih.step hst

/-- The acknowledgements of the chain are not ahead of its events. -/
def RelayState.Behind (s : RelayState) (chain : Nat) : Prop :=
  s.relay.lastAcknowledgedRelaySeq chain ≤ s.relay.outboundRelaySeq chain

variable (host) in
/-- An acknowledgement of the chain names an event that has been sent. -/
def AcksSent (chain : Nat) (s : RelayState) (m : RelayMove) : Prop :=
  ∀ ack ∈ acknowledgement host s m, ack.1 = chain → ack.2 ≤ s.relay.outboundRelaySeq chain

instance (chain : Nat) (s : RelayState) (m : RelayMove) : Decidable (AcksSent host chain s m) :=
  inferInstanceAs (Decidable (∀ ack ∈ acknowledgement host s m, _))

theorem RelayStep.behind {chain : Nat} (hst : RelayStep host s m s') (hs : s.Behind chain) :
    s'.Behind chain ↔ AcksSent host chain s m := by
  unfold RelayState.Behind AcksSent
  rcases hst.acknowledged_cases with ⟨hnone, hsame⟩ | ⟨chain', seq, hack, hseq, hacked, hcounter⟩
  · rw [hnone, hsame]
    refine iff_of_true (Nat.le_trans hs (hst.counter_le chain)) ?_
    rintro _ ⟨⟩
  · rw [hack, hacked, hcounter, update_apply]
    split
    case isTrue hchain =>
      subst hchain
      constructor
      · rintro hle _ ⟨⟩ _
        exact hle
      · intro hle
        exact hle _ rfl rfl
    case isFalse hchain =>
      refine iff_of_true hs ?_
      rintro _ ⟨⟩ heq
      exact absurd heq.symm hchain

/-- Along a run the acknowledgements stay behind exactly as long as each names what has been sent. -/
theorem behind_along {world : World} {h : List (RelayState × RelayMove)} (chain : Nat)
    (hr : Run (RelayStep host) ⟨world, .empty⟩ h s) :
    ((∀ e ∈ h, e.1.Behind chain) ∧ s.Behind chain) ↔ Along (AcksSent host chain) h := by
  induction hr with
  | nil =>
    refine iff_of_true ⟨?_, Nat.le_refl _⟩ ?_
    · rintro _ ⟨⟩
    · rintro _ ⟨⟩
  | @snoc h s m s' _ hst ih =>
    rw [Along, List.forall_mem_cons, List.forall_mem_cons]
    constructor
    · rintro ⟨⟨hs, hh⟩, hs'⟩
      exact ⟨(hst.behind hs).1 hs', ih.1 ⟨hh, hs⟩⟩
    · rintro ⟨hm, hh⟩
      obtain ⟨hh, hs⟩ := ih.2 hh
      exact ⟨⟨hs, hh⟩, (hst.behind hs).2 hm⟩

/-- In every run: the events stored for a chain are those numbered 1 to its
counter, each stored once and never overwritten; the acknowledged number never
decreases, and stays at most the counter exactly as long as each acknowledgement
names an event that has been sent. -/
theorem relayed_in_order {world : World} {h : List (RelayState × RelayMove)} {s : RelayState}
    (hr : Run (RelayStep host) ⟨world, .empty⟩ h s) :
    Outbound host h s ∧ ((emissions host h).map RelayEvent.outboundKey).Nodup ∧
      (∀ t m, (t, m) ∈ h → ∀ chain,
        (∀ n e, t.relay.outboundRelayEvent chain n = some e → s.relay.outboundRelayEvent chain n = some e) ∧
          t.relay.lastAcknowledgedRelaySeq chain ≤ s.relay.lastAcknowledgedRelaySeq chain) ∧
      ∀ chain, ((∀ e ∈ h, e.1.Behind chain) ∧ s.Behind chain) ↔ Along (AcksSent host chain) h := by
  refine ⟨outbound_of_run hr, ?_, fun t m hmem chain => ⟨fun n e he => ?_, ?_⟩, fun chain => behind_along chain hr⟩
  · rw [emissions, List.map_filterMap]
    exact emissions_marked.nodup hr
  · obtain ⟨post, pre, rfl⟩ := List.append_of_mem hmem
    obtain ⟨hpre, -⟩ := hr.split
    -- its emission is still in the history
    obtain ⟨hemitted, hchain, hn⟩ := ((outbound_of_run hpre).stored chain n e).1 he
    refine ((outbound_of_run hr).stored chain n e).2 ⟨?_, hchain, hn⟩
    rw [emissions_append, emissions_cons]
    exact List.mem_append_right _ (List.mem_append_right _ hemitted)
  · refine hr.since (I := fun u => t.relay.lastAcknowledgedRelaySeq chain ≤ u.relay.lastAcknowledgedRelaySeq chain)
      (fun u l u' hst hle => Nat.le_trans hle (hst.acked_le chain)) hmem (Nat.le_refl _)

end

/-! ### Three events, two acknowledged -/

/-- Three events emitted for chain 2, with an acknowledgement of the first two before the third. -/
theorem relayed_in_order_three :
    ∃ h s, Run (RelayStep sampleAttesting) ⟨sampleWorld, .empty⟩ h s ∧
      s.relay.outboundRelaySeq 2 = 3 ∧ s.relay.lastAcknowledgedRelaySeq 2 = 2 ∧
      Outbound sampleAttesting h s ∧ ((emissions sampleAttesting h).map RelayEvent.outboundKey).Nodup ∧ s.Behind 2 := by
  have hstart : Run (RelayStep sampleAttesting) ⟨sampleWorld, .empty⟩ [] ⟨sampleWorld, .empty⟩ := .nil
  have hr := hstart
    |>.snoc (@RelayStep.call _ _ [1] (.relayEmit [1] 2 "test" [1]))
    |>.snoc (@RelayStep.call _ _ [1] (.relayEmit [1] 2 "test" [2]))
    |>.snoc (@RelayStep.call _ _ [1] (.acknowledgeRelay [1] 2 2))
    |>.snoc (@RelayStep.call _ _ [1] (.relayEmit [1] 2 "test" [3]))
  obtain ⟨hout, hnodup, -, hbehind⟩ := relayed_in_order hr
  have hacks := (hbehind 2).2 (by decide +kernel)
  exact ⟨_, _, hr, by decide +kernel, by decide +kernel, hout, hnodup, hacks.2⟩

/-- An acknowledgement is accepted where nothing has been sent. -/
theorem acknowledged_unsent :
    ¬ ∀ h s, Run (RelayStep sampleAttesting) ⟨sampleWorld, .empty⟩ h s →
      ∀ chain, s.relay.lastAcknowledgedRelaySeq chain ≤ s.relay.outboundRelaySeq chain := by
  intro hclaim
  have hstart : Run (RelayStep sampleAttesting) ⟨sampleWorld, .empty⟩ [] ⟨sampleWorld, .empty⟩ := .nil
  have hr := hstart |>.snoc (@RelayStep.call _ _ [1] (.acknowledgeRelay [1] 2 42))
  exact absurd (hclaim _ _ hr 2) (by decide +kernel)

end QuorumCredit
