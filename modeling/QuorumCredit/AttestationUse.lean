import QuorumCredit.AuctionEffects
import QuorumCredit.BridgeRepay
import QuorumCredit.Host.Script
/-!
# The use of attestations

The calls that take a bridge attestation share one table of used nonces, and a
mirrored loan is written once. The reputation of a borrower is one record for all
chains, but it is compared only with a snapshot of the same chain.
-/

open Host Function

namespace QuorumCredit

/-- The store of the calls that take an attestation. -/
structure AttestedStore where
  bridge : BridgeStore
  auctions : Auctions

def AttestedStore.bridges (s : AttestedStore) : Bridges := s.bridge.bridges

instance : Part AttestedStore BridgeStore where
  get := AttestedStore.bridge
  set b s := { s with bridge := b }
instance : Part AttestedStore Bridges where
  get s := s.bridge.bridges
  set b s := { s with bridge.bridges := b }
instance : Part AttestedStore AuctionStore where
  get s := { bank := s.bridge.core.vault.bank, bridges := s.bridge.bridges, auctions := s.auctions }
  set x s := { bridge := { s.bridge with core.vault.bank := x.bank, bridges := x.bridges }, auctions := x.auctions }
  get_set _ _ := rfl
  set_get _ := rfl
  set_set _ _ _ := rfl

inductive AttestedOp where
  | mirrorLoanToChain (metadata : CrossChainLoanMetadata) (attestation : BridgeAttestation)
  | repayCrossChainAtomic (originChain loanId : Nat) (borrower : Address) (paymentAmount : Int)
      (attestation : BridgeAttestation)
  | placeBid (auctionId : Nat) (bidder : Address) (bidAmount : Int) (chainId : Nat)
      (attestation : Option BridgeAttestation)
  | validateBridgeAttestation (metadata : CrossChainLoanMetadata) (attestation : BridgeAttestation)
  | verifyBridgeMessage (metadata : CrossChainLoanMetadata) (attestation : BridgeAttestation)
  | setBridgePublicKey (adminSigners : List Address) (originChain : Nat) (publicKey : Vector UInt8 32)
deriving DecidableEq

section

variable (host : BridgeHost)

def AttestedOp.run : AttestedOp → Contract AttestedStore Unit
  | .mirrorLoanToChain metadata attestation => monadLift (QuorumCredit.mirrorLoanToChain host metadata attestation)
  | .repayCrossChainAtomic originChain loanId borrower paymentAmount attestation =>
    monadLift (QuorumCredit.repayCrossChainAtomic host originChain loanId borrower paymentAmount attestation)
  | .placeBid auctionId bidder bidAmount chainId attestation =>
    monadLift (QuorumCredit.placeBid host auctionId bidder bidAmount chainId attestation)
  | .validateBridgeAttestation metadata attestation =>
    monadLift (QuorumCredit.validateBridgeAttestation host metadata attestation)
  | .verifyBridgeMessage metadata attestation => monadLift (QuorumCredit.verifyBridgeMessage host metadata attestation)
  | .setBridgePublicKey signers originChain publicKey =>
    monadLift (QuorumCredit.setBridgePublicKey signers originChain publicKey)

/-- The calls with an attestation. Everything else may change but the entries of `cross_chain.rs`. -/
def attestations : Component World (List Address) Context Failure AttestedStore AttestedOp where
  run := AttestedOp.run host
  context w signers := { w with signers }
  drift w s w' s' := w.now ≤ w'.now ∧ w'.contract = w.contract ∧ s'.bridges = s.bridges

end

abbrev AttestedHistory := List (Situated World AttestedStore × Event World (List Address) AttestedStore AttestedOp)

/-- Nothing attested yet; the rest of the contract as it may be. -/
def attestedStart (world : World) (core : Store) (swaps : Swaps) (auctions : Auctions) :
    Situated World AttestedStore :=
  ⟨world, { bridge := { core, bridges := .empty, swaps }, auctions }⟩

/-! ## What a call does -/

namespace AttestedOp

/-- The chain and the nonce of the attestation that the call uses up; a local bid looks at none. -/
def consumes : AttestedOp → Option (Nat × Nat)
  | .mirrorLoanToChain metadata attestation => some (metadata.originChain, attestation.nonce)
  | .repayCrossChainAtomic originChain _ _ _ attestation => some (originChain, attestation.nonce)
  | .placeBid _ _ _ chainId attestation =>
    if chainId = localChainId then none else attestation.map fun a => (chainId, a.nonce)
  | .validateBridgeAttestation metadata attestation => some (metadata.originChain, attestation.nonce)
  | .verifyBridgeMessage .. => none
  | .setBridgePublicKey .. => none

/-- The chain and the loan that the call mirrors. -/
def mirrors : AttestedOp → Option (Nat × Nat)
  | .mirrorLoanToChain metadata _ => some (metadata.originChain, metadata.loanId)
  | _ => none

end AttestedOp

/-- The entries with a loan and the borrower's reputation mirrored. -/
def Bridges.mirror (b : Bridges) (metadata : CrossChainLoanMetadata) (timestamp : Nat) : Bridges :=
  { b with
    mirroredLoan := update b.mirroredLoan metadata.originChain
      (update (b.mirroredLoan metadata.originChain) metadata.loanId (some metadata))
    crossChainReputation := update b.crossChainReputation metadata.borrower
      (some { score := metadata.reputationScore, chain := metadata.originChain, updatedAt := timestamp }) }

/-- What a call that goes through found and did to the entries of `cross_chain.rs`. -/
inductive AttestedEffect (b c : Bridges) : AttestedOp → Prop
  | mirrored {metadata attestation} : b.bridgeNonceUsed metadata.originChain attestation.nonce = false →
      b.mirroredLoan metadata.originChain metadata.loanId = none →
      (∀ record ∈ b.crossChainReputation metadata.borrower, record.chain = metadata.originChain →
        record.updatedAt ≤ attestation.timestamp) →
      c = (b.consume metadata.originChain attestation.nonce).mirror metadata attestation.timestamp →
      AttestedEffect b c (.mirrorLoanToChain metadata attestation)
  | consumed {op chain nonce} : op.consumes = some (chain, nonce) → op.mirrors = none →
      b.bridgeNonceUsed chain nonce = false → c = b.consume chain nonce → AttestedEffect b c op
  | kept {op} : op.consumes = none → op.mirrors = none → c.bridgeNonceUsed = b.bridgeNonceUsed →
      c.mirroredLoan = b.mirroredLoan → c.crossChainReputation = b.crossChainReputation → AttestedEffect b c op

section

variable {host : BridgeHost} {ctx : Context}

theorem yields_requireBidAttestation (id : Nat) (bidder : Address) (amount : Int) (chain : Nat)
    (attestation : Option BridgeAttestation) (b : Bridges) :
    Yields (requireBidAttestation host id bidder amount chain attestation) ctx b fun _ c =>
      AttestedEffect b c (.placeBid id bidder amount chain attestation) := by
  rw [requireBidAttestation, yields_ite]
  constructor
  · intro hremote
    simp only [validateActiveBridge, yields_steps, yields_validateBridgeAttestation]
    rintro _ a rfl haccepts
    exact .consumed (if_neg hremote) rfl haccepts.unused rfl
  · intro hlocal
    rw [yields_pure]
    exact .kept (if_pos (not_not.1 hlocal)) rfl rfl rfl rfl

/-- A bid touches the attestations only when it presents its own. -/
theorem yields_placeBid_bridges (id : Nat) (bidder : Address) (amount : Int) (chain : Nat)
    (attestation : Option BridgeAttestation) (s : AuctionStore) :
    Yields (placeBid host id bidder amount chain attestation) ctx s fun _ t =>
      AttestedEffect s.bridges t.bridges (.placeBid id bidder amount chain attestation) := by
  simp only [placeBid, yields_steps, yields_requireAuth, yields_parts]
  intro _ _
  refine (yields_requireBidAttestation id bidder amount chain attestation _).mono fun _ b hb => ?_
  simp only [loadAuction, setBid, saveAuction, escrowBid, yields_steps, yields_i128, yields_u32]
  intro auction _ _ _ _ _
  refine (yields_true _ _ _).mono fun _ bank _ => ?_
  exact fun _ => hb

theorem yields_repayCrossChainAtomic_bridges (chain id : Nat) (borrower : Address) (amount : Int)
    (attestation : BridgeAttestation) (s : BridgeStore) :
    Yields (repayCrossChainAtomic host chain id borrower amount attestation) ctx s fun _ t =>
      AttestedEffect s.bridges t.bridges (.repayCrossChainAtomic chain id borrower amount attestation) := by
  simp only [repayCrossChainAtomic, repayCrossChainAtomicInner, yields_bind, yields_parts]
  refine (yields_true _ _ _).mono fun _ core _ => ?_
  simp only [yields_steps, yields_validateBridgeAttestation]
  intro loan _ _ haccepts
  refine (yields_true _ _ _).mono fun _ core' _ => ?_
  refine (yields_true _ _ _).mono fun _ core'' _ => ?_
  exact .consumed rfl rfl haccepts.unused rfl

theorem yields_mirrorLoanToChain (metadata : CrossChainLoanMetadata) (attestation : BridgeAttestation) (b : Bridges) :
    Yields (mirrorLoanToChain host metadata attestation) ctx b fun _ c =>
      AttestedEffect b c (.mirrorLoanToChain metadata attestation) := by
  simp only [mirrorLoanToChain, yields_steps, yields_validateBridgeAttestation]
  intro haccepts hnew hfresh
  refine .mirrored haccepts.unused hnew (fun record hrecord hchain => ?_) rfl
  exact not_lt.1 fun hstale => hfresh record hrecord ⟨hchain, hstale⟩

theorem yields_attestedOp (op : AttestedOp) (s : AttestedStore) :
    Yields (op.run host) ctx s fun _ t => AttestedEffect s.bridges t.bridges op := by
  cases op with
  | mirrorLoanToChain metadata attestation =>
    simp only [AttestedOp.run, yields_parts]
    exact yields_mirrorLoanToChain metadata attestation s.bridges
  | repayCrossChainAtomic chain id borrower amount attestation =>
    simp only [AttestedOp.run, yields_parts]
    exact yields_repayCrossChainAtomic_bridges chain id borrower amount attestation s.bridge
  | placeBid id bidder amount chain attestation =>
    simp only [AttestedOp.run, yields_parts]
    exact yields_placeBid_bridges id bidder amount chain attestation _
  | validateBridgeAttestation metadata attestation =>
    simp only [AttestedOp.run, yields_parts, yields_validateBridgeAttestation]
    exact fun haccepts => .consumed rfl rfl haccepts.unused rfl
  | verifyBridgeMessage metadata attestation =>
    simp only [AttestedOp.run, verifyBridgeMessage, yields_parts, yields_checkAttestation]
    exact fun _ => .kept rfl rfl rfl rfl rfl
  | setBridgePublicKey signers chain key =>
    simp only [AttestedOp.run, setBridgePublicKey, validateActiveBridge, yields_parts, yields_steps, yields_approved]
    exact fun _ _ => .kept rfl rfl rfl rfl rfl

end

/-! ## Counting -/

/-- No borrower's snapshot has become older. -/
def Forward (b c : Bridges) : Prop :=
  ∀ borrower record, b.crossChainReputation borrower = some record →
    ∃ record', c.crossChainReputation borrower = some record' ∧ record.updatedAt ≤ record'.updatedAt

/-- A mirrored snapshot finds none of another chain that is newer. -/
def MirrorsNewer (s : Situated World AttestedStore) : AttestedOp → Prop
  | .mirrorLoanToChain metadata attestation => ∀ record ∈ s.store.bridges.crossChainReputation metadata.borrower,
      record.chain ≠ metadata.originChain → record.updatedAt ≤ attestation.timestamp
  | _ => True

instance (s : Situated World AttestedStore) (op : AttestedOp) : Decidable (MirrorsNewer s op) := by
  unfold MirrorsNewer
  split <;> infer_instance

section

variable (host : BridgeHost)

/-- How often an attestation of the chain with the nonce has been used. -/
def usesOf (chain nonce : Nat) : AttestedHistory → Int :=
  (attestations host).tally fun _ op _ => if op.consumes = some (chain, nonce) then 1 else 0

/-- How often the loan of the chain has been mirrored. -/
def mirrorsOf (chain id : Nat) : AttestedHistory → Int :=
  (attestations host).tally fun _ op _ => if op.mirrors = some (chain, id) then 1 else 0

/-- Each nonce is used once, each loan mirrored once, and snapshots only become newer. -/
structure TakesEffectOnce (h : AttestedHistory) : Prop where
  nonces : ∀ chain nonce, usesOf host chain nonce h ≤ 1
  loans : ∀ chain id, mirrorsOf host chain id h ≤ 1
  forward : ∀ e ∈ h, ∀ d ∈ (attestations host).done e.1 e.2, Forward e.1.store.bridges d.2.bridges

/-- What holds of the attestations in every run. -/
structure AttestationBooks (h : AttestedHistory) (b : Bridges) : Prop where
  nonces : ∀ chain nonce, usesOf host chain nonce h = if b.bridgeNonceUsed chain nonce = true then 1 else 0
  loans : ∀ chain id, mirrorsOf host chain id h = if (b.mirroredLoan chain id).isSome then 1 else 0

end

section

variable {host : BridgeHost} {h : AttestedHistory} {s : Situated World AttestedStore} {signers : List Address}
  {op : AttestedOp} {t : AttestedStore}

theorem attestedEffect_of (he : (attestations host).exec s signers op = some t) :
    AttestedEffect s.store.bridges t.bridges op :=
  Component.exec_yields (Q := fun t => AttestedEffect s.store.bridges t.bridges op) (yields_attestedOp op s.store) he

theorem update₂_apply {β : Type} (f : Nat → Nat → β) (x y : Nat) (v : β) (x' y' : Nat) :
    update f x (update (f x) y v) x' y' = if (x, y) = (x', y') then v else f x' y' := by
  rw [update_apply]
  by_cases hx : x' = x
  · rw [if_pos hx, hx, update_apply]
    simp [eq_comm]
  · rw [if_neg hx, if_neg (by simp [Ne.symm hx])]

theorem consume_nonce (b : Bridges) (chain nonce chain' nonce' : Nat) :
    (b.consume chain nonce).bridgeNonceUsed chain' nonce' =
      if (chain, nonce) = (chain', nonce') then true else b.bridgeNonceUsed chain' nonce' := update₂_apply ..

theorem mirror_loan (b : Bridges) (metadata : CrossChainLoanMetadata) (timestamp chain id : Nat) :
    (b.mirror metadata timestamp).mirroredLoan chain id =
      if (metadata.originChain, metadata.loanId) = (chain, id) then some metadata else b.mirroredLoan chain id :=
  update₂_apply ..

/-- A nonce is used by the call that finds it unused, and by no other. -/
theorem AttestedEffect.nonces {b c : Bridges} (he : AttestedEffect b c op) (chain nonce : Nat) :
    (if b.bridgeNonceUsed chain nonce = true then 1 else 0) + (if op.consumes = some (chain, nonce) then 1 else 0) =
      if c.bridgeNonceUsed chain nonce = true then (1 : Int) else 0 := by
  have hconsume : ∀ chain' nonce', op.consumes = some (chain', nonce') → b.bridgeNonceUsed chain' nonce' = false →
      c.bridgeNonceUsed = (b.consume chain' nonce').bridgeNonceUsed →
      (if b.bridgeNonceUsed chain nonce = true then 1 else 0) + (if op.consumes = some (chain, nonce) then 1 else 0) =
        if c.bridgeNonceUsed chain nonce = true then (1 : Int) else 0 := by
    intro chain' nonce' hop hunused hc
    rw [hop, hc, consume_nonce]
    by_cases hown : (chain', nonce') = (chain, nonce)
    · cases hown
      simp [hunused]
    · simp [hown]
  cases he with
  | mirrored hunused _ _ hc => exact hconsume _ _ rfl hunused (by rw [hc]; rfl)
  | consumed hop _ hunused hc => exact hconsume _ _ hop hunused (congrArg Bridges.bridgeNonceUsed hc)
  | kept hop _ hc => simp [hop, hc]

theorem AttestedEffect.loans {b c : Bridges} (he : AttestedEffect b c op) (chain id : Nat) :
    (if (b.mirroredLoan chain id).isSome then 1 else 0) + (if op.mirrors = some (chain, id) then 1 else 0) =
      if (c.mirroredLoan chain id).isSome then (1 : Int) else 0 := by
  cases he with
  | @mirrored metadata attestation _ hnew _ hc =>
    rw [hc, mirror_loan]
    by_cases hown : (metadata.originChain, metadata.loanId) = (chain, id)
    · cases hown
      simp [AttestedOp.mirrors, hnew]
    · simp [AttestedOp.mirrors, hown, Bridges.consume]
  | consumed _ hop _ hc => simp [hop, hc, Bridges.consume]
  | kept _ hop _ hc => simp [hop, hc]

/-- Only a mirrored snapshot can be older than the one it replaces. -/
theorem AttestedEffect.forward_iff (he : AttestedEffect s.store.bridges t.bridges op) :
    Forward s.store.bridges t.bridges ↔ MirrorsNewer s op := by
  have hsame : s.store.bridges.crossChainReputation = t.bridges.crossChainReputation → op.mirrors = none →
      (Forward s.store.bridges t.bridges ↔ MirrorsNewer s op) := by
    intro hrep hop
    refine iff_of_true (fun borrower record hrecord => ⟨record, hrep ▸ hrecord, le_rfl⟩) ?_
    cases op with
    | mirrorLoanToChain => cases hop
    | repayCrossChainAtomic => trivial
    | placeBid => trivial
    | validateBridgeAttestation => trivial
    | verifyBridgeMessage => trivial
    | setBridgePublicKey => trivial
  cases he with
  | @mirrored metadata attestation _ _ hfresh hc =>
    have hrep : t.bridges.crossChainReputation = update s.store.bridges.crossChainReputation metadata.borrower
        (some { score := metadata.reputationScore, chain := metadata.originChain
                updatedAt := attestation.timestamp }) := congrArg Bridges.crossChainReputation hc
    constructor
    · intro hforward record hrecord _
      obtain ⟨record', hrecord', hle⟩ := hforward metadata.borrower record hrecord
      rw [hrep, update_self] at hrecord'
      cases hrecord'
      exact hle
    · intro hnewer borrower record hrecord
      rw [hrep, update_apply]
      split
      case isTrue hb =>
        subst hb
        refine ⟨_, rfl, ?_⟩
        by_cases hchain : record.chain = metadata.originChain
        · exact hfresh record hrecord hchain
        · exact hnewer record hrecord hchain
      case isFalse => exact ⟨record, hrecord, le_rfl⟩
  | consumed _ hop _ hc => exact hsame (congrArg Bridges.crossChainReputation hc).symm hop
  | kept _ hop _ _ hc => exact hsame hc.symm hop

theorem AttestationBooks.call (hi : AttestationBooks host h s.store.bridges)
    (he : (attestations host).exec s signers op = some t) :
    AttestationBooks host ((s, .call signers op) :: h) t.bridges := by
  have heffect := attestedEffect_of he
  constructor
  · intro chain nonce
    rw [usesOf, Component.tally_call he, ← heffect.nonces chain nonce, ← hi.nonces chain nonce]
    rfl
  · intro chain id
    rw [mirrorsOf, Component.tally_call he, ← heffect.loans chain id, ← hi.loans chain id]
    rfl

theorem AttestationBooks.idle (hi : AttestationBooks host h s.store.bridges)
    {e : Event World (List Address) AttestedStore AttestedOp} {s' : Situated World AttestedStore}
    (hnone : (attestations host).done s e = none)
    (hsame : s' = s ∨ (attestations host).drift s.world s.store s'.world s'.store) :
    AttestationBooks host ((s, e) :: h) s'.store.bridges := by
  have hbridges : s'.store.bridges = s.store.bridges := by
    rcases hsame with rfl | ⟨-, -, hbridges⟩
    · rfl
    · exact hbridges
  rw [hbridges]
  constructor
  · intro chain nonce
    rw [usesOf, Component.tally_idle hnone]
    exact hi.nonces chain nonce
  · intro chain id
    rw [mirrorsOf, Component.tally_idle hnone]
    exact hi.loans chain id

theorem attestationBooks_run {world : World} {core : Store} {swaps : Swaps} {auctions : Auctions}
    (hr : Run (attestations host).Step (attestedStart world core swaps auctions) h s) :
    AttestationBooks host h s.store.bridges :=
  Component.inv (I := fun h s => AttestationBooks host h s.store.bridges) ⟨fun _ _ => rfl, fun _ _ => rfl⟩
    (fun _ hi he => hi.call he) (fun hi hnone hsame => hi.idle hnone hsame) hr

/-- Attestations take effect once in a run, and snapshots only become newer, exactly if
no mirrored one finds a newer one of another chain. -/
theorem attestations_once_iff {world : World} {core : Store} {swaps : Swaps} {auctions : Auctions}
    (hr : Run (attestations host).Step (attestedStart world core swaps auctions) h s) :
    TakesEffectOnce host h ↔ Along ((attestations host).WhenDone MirrorsNewer) h := by
  have hbooks := attestationBooks_run hr
  have hforward : ∀ e ∈ h, (∀ d ∈ (attestations host).done e.1 e.2, Forward e.1.store.bridges d.2.bridges) ↔
      (attestations host).WhenDone MirrorsNewer e.1 e.2 := by
    rintro ⟨s, e⟩ -
    refine forall₂_congr fun d hd => ?_
    obtain ⟨op, t⟩ := d
    obtain ⟨signers, rfl, he⟩ := Component.of_done hd
    exact (attestedEffect_of he).forward_iff
  constructor
  · intro honce
    exact fun e he => (hforward e he).1 (honce.forward e he)
  · intro hok
    refine ⟨fun chain nonce => ?_, fun chain id => ?_, fun e he => (hforward e he).2 (hok e he)⟩
    · rw [hbooks.nonces]
      split <;> decide
    · rw [hbooks.loans]
      split <;> decide

end

/-! ## Two chains -/

/-- A host on which every signature verifies. -/
def signedHost : BridgeHost :=
  { toXdr := fun _ => [], sha256 := fun _ => .replicate 32 0, ed25519Verify := fun _ _ _ => true }

/-- Chains 5 and 6 have an active bridge. -/
def bridgedWorld : World := { sampleWorld with activeBridge := fun chain => decide (chain = 5 ∨ chain = 6) }

/-- A loan of account 10 that was repaid on the chain. -/
def repaidOn (chain : Nat) : CrossChainLoanMetadata :=
  { originChain := chain, loanId := 1, borrower := 10, amount := 1000, status := .repaid, reputationScore := 700 }

def attestedAt (timestamp : Nat) : BridgeAttestation :=
  { nonce := 1, timestamp, confirmations := 12, signature := .replicate 64 0 }

/-- Both chains get a key, and chain 5 attests a loan. -/
def keyedChains : List (List Address × AttestedOp) :=
  [([1], .setBridgePublicKey [1] 5 (.replicate 32 0)), ([1], .setBridgePublicKey [1] 6 (.replicate 32 0)),
    ([], .mirrorLoanToChain (repaidOn 5) (attestedAt 1000000))]

def attestedStore : Situated World AttestedStore :=
  attestedStart bridgedWorld (genesis bridgedWorld sampleBank).store .empty .empty

def mirroredHistory (timestamp : Nat) : AttestedHistory :=
  (attestations signedHost).trace attestedStore []
    (keyedChains ++ [([], .mirrorLoanToChain (repaidOn 6) (attestedAt timestamp))])

theorem run_mirrored (timestamp : Nat) : Run (attestations signedHost).Step attestedStore (mirroredHistory timestamp)
    ((attestations signedHost).play attestedStore
      (keyedChains ++ [([], .mirrorLoanToChain (repaidOn 6) (attestedAt timestamp))])) :=
  Component.run_play _ .nil _

/-- Chain 6 attests a loan ten seconds later. -/
theorem attestations_once_later : TakesEffectOnce signedHost (mirroredHistory 1000010) ∧
    mirrorsOf signedHost 6 1 (mirroredHistory 1000010) = 1 := by
  constructor
  · refine (attestations_once_iff (run_mirrored 1000010)).2 ?_
    unfold Along
    decide +kernel
  · unfold mirrorsOf
    decide +kernel

/-- Chain 6 attests a loan of 100 seconds before, and its snapshot replaces the newer one. -/
theorem attestations_once_older :
    ¬ ∀ host world core swaps auctions h s,
      Run (attestations host).Step (attestedStart world core swaps auctions) h s → TakesEffectOnce host h := by
  intro hclaim
  have honce := hclaim _ _ _ _ _ _ _ (run_mirrored 999900)
  have hdone : ((attestations signedHost).exec ((attestations signedHost).play attestedStore keyedChains) []
      (.mirrorLoanToChain (repaidOn 6) (attestedAt 999900))).isSome := by decide +kernel
  have he := Component.exec_of_isSome hdone
  have hforward := honce.forward _ List.mem_cons_self _ (Component.done_call he)
  have hnewer := (attestedEffect_of he).forward_iff.1 hforward
  exact absurd hnewer (by decide +kernel)

end QuorumCredit
