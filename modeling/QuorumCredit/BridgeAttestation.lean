import QuorumCredit.Frames
import QuorumCredit.Host.Component
/-!
# Bridge attestations

`cross_chain.rs`: events of another chain, accepted under an attestation signed by
the key of its bridge. The host's serialization, SHA-256 and Ed25519 are parameters.
-/

open Host Function

namespace QuorumCredit

def bridgeAttestationMaxAgeSecs : Nat := 10 * 60
def bridgeAttestationMaxSkewSecs : Nat := 60
def minBridgeConfirmations : Nat := 12

/-- A snapshot of a loan on another chain. -/
structure CrossChainLoanMetadata where
  originChain : Nat
  loanId : Nat
  borrower : Address
  amount : Int
  status : LoanStatus
  reputationScore : Nat
deriving DecidableEq, Repr

structure BridgeAttestation where
  nonce : Nat
  timestamp : Nat
  confirmations : Nat
  signature : Vector UInt8 64
deriving DecidableEq, Repr

structure CrossChainReputationRecord where
  score : Nat
  chain : Nat
  updatedAt : Nat
deriving DecidableEq, Repr

/-- The storage entries of the module. -/
structure Bridges where
  bridgePublicKey : Nat → Option (Vector UInt8 32)
  bridgeNonceUsed : Nat → Nat → Bool
  mirroredLoan : Nat → Nat → Option CrossChainLoanMetadata
  crossChainReputation : Address → Option CrossChainReputationRecord

def Bridges.empty : Bridges :=
  { bridgePublicKey := fun _ => none, bridgeNonceUsed := fun _ _ => false, mirroredLoan := fun _ _ => none
    crossChainReputation := fun _ => none }

/-- The host functions behind an attestation. -/
structure BridgeHost where
  toXdr : CrossChainLoanMetadata × Nat × Nat × Nat → List UInt8
  sha256 : List UInt8 → Vector UInt8 32
  ed25519Verify : Vector UInt8 32 → List UInt8 → Vector UInt8 64 → Bool

/-- `validate_bridge`: an active bridge is registered for the chain. -/
def validateActiveBridge {σ : Type} (chainId : Nat) : Contract σ Unit := do
  let ctx ← ask
  require (ctx.activeBridge chainId = true) (.error .invalidChain)

def setBridgePublicKey (adminSigners : List Address) (originChain : Nat) (publicKey : Vector UInt8 32) :
    Contract Bridges Unit := do
  requireAdminApproval adminSigners
  validateActiveBridge originChain
  alter fun b => { b with bridgePublicKey := update b.bridgePublicKey originChain (some publicKey) }

/-- Neither too old nor too far in the future. -/
def requireTimely (timestamp : Nat) : Contract Bridges Unit := do
  let ctx ← ask
  if ctx.now < timestamp then
    require (timestamp - ctx.now ≤ bridgeAttestationMaxSkewSecs) (.error .attestationFromFuture)
  else require (ctx.now - timestamp ≤ bridgeAttestationMaxAgeSecs) (.error .attestationExpired)

section

variable (host : BridgeHost)

def bridgeAttestationMessage (metadata : CrossChainLoanMetadata) (nonce timestamp confirmations : Nat) : List UInt8 :=
  (host.sha256 (host.toXdr (metadata, nonce, timestamp, confirmations))).toList

def checkAttestation (metadata : CrossChainLoanMetadata) (attestation : BridgeAttestation) : Contract Bridges Unit := do
  validateActiveBridge metadata.originChain
  let publicKey ← orFail (← look (·.bridgePublicKey metadata.originChain)) (.error .bridgeNotConfigured)
  let used ← look (·.bridgeNonceUsed metadata.originChain attestation.nonce)
  require (used = false) (.error .replayAttackDetected)
  require (minBridgeConfirmations ≤ attestation.confirmations) (.error .insufficientBridgeConfirmations)
  requireTimely attestation.timestamp
  let message :=
    bridgeAttestationMessage host metadata attestation.nonce attestation.timestamp attestation.confirmations
  require (host.ed25519Verify publicKey message attestation.signature = true) .signature

/-- Verifies an attestation, and marks its nonce as used. -/
def validateBridgeAttestation (metadata : CrossChainLoanMetadata) (attestation : BridgeAttestation) :
    Contract Bridges Unit := do
  checkAttestation host metadata attestation
  alter fun b =>
    { b with
      bridgeNonceUsed := update b.bridgeNonceUsed metadata.originChain
        (update (b.bridgeNonceUsed metadata.originChain) attestation.nonce true) }

def verifyBridgeMessage (metadata : CrossChainLoanMetadata) (attestation : BridgeAttestation) :
    Contract Bridges Unit :=
  checkAttestation host metadata attestation

def mirrorLoanToChain (metadata : CrossChainLoanMetadata) (attestation : BridgeAttestation) :
    Contract Bridges Unit := do
  validateBridgeAttestation host metadata attestation
  let mirrored ← look (·.mirroredLoan metadata.originChain metadata.loanId)
  require (mirrored = none) (.error .reputationAlreadySpent)
  let existing ← look (·.crossChainReputation metadata.borrower)
  require (∀ record ∈ existing, ¬ (record.chain = metadata.originChain ∧ attestation.timestamp < record.updatedAt))
    (.error .staleBridgeAttestation)
  alter fun b =>
    { b with
      mirroredLoan := update b.mirroredLoan metadata.originChain
        (update (b.mirroredLoan metadata.originChain) metadata.loanId (some metadata)) }
  alter fun b =>
    { b with
      crossChainReputation := update b.crossChainReputation metadata.borrower
        (some { score := metadata.reputationScore, chain := metadata.originChain
                updatedAt := attestation.timestamp }) }

end

/-! ## What an accepted attestation does -/

section

variable {host : BridgeHost} {ctx : Context} {b : Bridges} {metadata : CrossChainLoanMetadata}
  {attestation : BridgeAttestation}

/-- The entries after the nonce has been used. -/
def Bridges.consume (b : Bridges) (chain nonce : Nat) : Bridges :=
  { b with bridgeNonceUsed := update b.bridgeNonceUsed chain (update (b.bridgeNonceUsed chain) nonce true) }

/-- The attestation may be accepted: an active bridge with a key, an unused nonce,
enough confirmations, a timely timestamp, and the key's signature. -/
structure Bridges.Accepts (host : BridgeHost) (ctx : Context) (b : Bridges) (metadata : CrossChainLoanMetadata)
    (attestation : BridgeAttestation) : Prop where
  bridge : ctx.activeBridge metadata.originChain = true
  unused : b.bridgeNonceUsed metadata.originChain attestation.nonce = false
  confirmed : minBridgeConfirmations ≤ attestation.confirmations
  skew : attestation.timestamp ≤ ctx.now + bridgeAttestationMaxSkewSecs
  age : ctx.now ≤ attestation.timestamp + bridgeAttestationMaxAgeSecs
  signed : ∃ key, b.bridgePublicKey metadata.originChain = some key ∧ host.ed25519Verify key
    (bridgeAttestationMessage host metadata attestation.nonce attestation.timestamp attestation.confirmations)
    attestation.signature = true

theorem goes_requireTimely (timestamp : Nat) (Q : Unit → Bridges → Prop) :
    Goes (requireTimely timestamp) ctx b Q ↔
      (timestamp ≤ ctx.now + bridgeAttestationMaxSkewSecs ∧ ctx.now ≤ timestamp + bridgeAttestationMaxAgeSecs) ∧
        Q () b := by
  simp only [requireTimely, goes_bind, goes_ask]
  split
  case isTrue hfuture =>
    rw [goes_require]
    refine and_congr_left fun _ => ?_
    omega
  case isFalse hpast =>
    rw [goes_require]
    refine and_congr_left fun _ => ?_
    omega

theorem goes_checkAttestation (Q : Unit → Bridges → Prop) :
    Goes (checkAttestation host metadata attestation) ctx b Q ↔ b.Accepts host ctx metadata attestation ∧ Q () b := by
  simp only [checkAttestation, validateActiveBridge, goes_bind, goes_ask, goes_require, goes_look, goes_orFail,
    goes_requireTimely]
  constructor
  · rintro ⟨hbridge, key, hkey, hunused, hconfirmed, ⟨hskew, hage⟩, hsigned, hq⟩
    exact ⟨⟨hbridge, hunused, hconfirmed, hskew, hage, key, hkey, hsigned⟩, hq⟩
  · rintro ⟨⟨hbridge, hunused, hconfirmed, hskew, hage, key, hkey, hsigned⟩, hq⟩
    exact ⟨hbridge, key, hkey, hunused, hconfirmed, ⟨hskew, hage⟩, hsigned, hq⟩

/-- The attestation is accepted exactly under `Accepts`, and its nonce is used up. -/
theorem goes_validateBridgeAttestation (Q : Unit → Bridges → Prop) :
    Goes (validateBridgeAttestation host metadata attestation) ctx b Q ↔
      b.Accepts host ctx metadata attestation ∧ Q () (b.consume metadata.originChain attestation.nonce) := by
  simp only [validateBridgeAttestation, goes_bind, goes_checkAttestation, goes_alter, Bridges.consume]

theorem yields_checkAttestation (Q : Unit → Bridges → Prop) :
    Yields (checkAttestation host metadata attestation) ctx b Q ↔
      (b.Accepts host ctx metadata attestation → Q () b) :=
  yields_of_goes goes_checkAttestation Q

theorem yields_validateBridgeAttestation (Q : Unit → Bridges → Prop) :
    Yields (validateBridgeAttestation host metadata attestation) ctx b Q ↔
      (b.Accepts host ctx metadata attestation → Q () (b.consume metadata.originChain attestation.nonce)) :=
  yields_of_goes goes_validateBridgeAttestation Q

end

end QuorumCredit
