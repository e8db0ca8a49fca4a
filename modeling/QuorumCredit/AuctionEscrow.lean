import QuorumCredit.AuctionEffects
import QuorumCredit.Host.Occurrences
import QuorumCredit.Host.Script
import QuorumCredit.Host.Totals
/-!
# The escrow of the auctions

A bidder's record stands for what it has in escrow, until the record is marked as
refunded. Cancelling an auction marks the leading bid without paying it back, a
cancelled auction goes on taking bids until its end, and a second auction of the
same second takes the place of the first.
-/

open Host Function

namespace QuorumCredit

/-! ## The escrow, read off the ledger -/

/-- The auction and the bidder whose escrow the call moves. -/
def AuctionOp.moves : AuctionOp → Option (Nat × Address)
  | .placeBid id p _ _ _ => some (id, p)
  | .claimRefund id p => some (id, p)
  | _ => none

/-- What the contract took from the bidder in the call, less what it paid back, in the auction's token. -/
def escrowMoved (s : Situated World AuctionStore) (op : AuctionOp) (t : AuctionStore) : Int :=
  match op with
  | .placeBid id p _ _ _ => (s.store.auctions.crossChainAuction id).elim 0 fun a =>
      Bank.sent t.bank.log a.token p s.world.contract - Bank.sent s.store.bank.log a.token p s.world.contract
  | .claimRefund id p => (s.store.auctions.crossChainAuction id).elim 0 fun a =>
      Bank.sent s.store.bank.log a.token s.world.contract p - Bank.sent t.bank.log a.token s.world.contract p
  | _ => 0

section

variable (host : BridgeHost)

/-- What the bidder has in escrow for the auction. -/
def bidEscrowBy (id : Nat) (p : Address) : AuctionHistory → Int :=
  (crossChainAuctions host).tally fun s op t => if op.moves = some (id, p) then escrowMoved s op t else 0

/-- What is in escrow for the auction. -/
def bidEscrow (id : Nat) : AuctionHistory → Int :=
  (crossChainAuctions host).tally fun s op t => if op.moves.map Prod.fst = some id then escrowMoved s op t else 0

end

namespace AuctionOp

def Settles (id : Nat) (op : AuctionOp) : Prop := ∃ signers, op = .settleAuction signers id

def Cancels (id : Nat) (op : AuctionOp) : Prop := ∃ signers, op = .cancelAuction signers id

/-- The auction the call is about; an auction is created under the time. -/
def target (now : Nat) : AuctionOp → Nat
  | .createCrossChainAuction .. => now
  | .placeBid id _ _ _ _ => id
  | .claimRefund id _ => id
  | .settleAuction _ id => id
  | .extendAuction _ id _ => id
  | .cancelAuction _ id => id

end AuctionOp

/-! ## The books of one auction -/

/-- While the calls are safe, the records of an auction say what is in escrow and
how the auction ended. -/
structure AuctionBooks (host : BridgeHost) (h : AuctionHistory) (contract : Address) (g : Auctions) (id : Nat) :
    Prop where
  escrow : ∀ p, bidEscrowBy host id p h = openBid (g.auctionBid id p)
  total : Totals (fun p => openBid (g.auctionBid id p)) (bidEscrow host id h)
  amount : ∀ p b, g.auctionBid id p = some b → 0 < b.amount ∧ p ≠ contract
  absent : g.crossChainAuction id = none → g.auctionBid id = (fun _ => none) ∧ g.auctionSettlement id = none
  leading : ∀ a, g.crossChainAuction id = some a → 0 ≤ a.highestBid ∧ ∀ p, openBid (g.auctionBid id p) ≤ a.highestBid
  settled : (crossChainAuctions host).Occurred (AuctionOp.Settles id) h ↔ g.auctionSettlement id ≠ none
  cancelled : (crossChainAuctions host).Occurred (AuctionOp.Cancels id) h ↔
    ∃ a, g.crossChainAuction id = some a ∧ a.settled = true ∧ g.auctionSettlement id = none
  closed : ∀ a, g.crossChainAuction id = some a → g.auctionSettlement id ≠ none → a.settled = true

section

variable {host : BridgeHost} {h : AuctionHistory} {s : Situated World AuctionStore} {signers : List Address}
  {op : AuctionOp} {t : AuctionStore} {id : Nat} {p : Address} {a : CrossChainAuction}

theorem auctionEffect_of (he : (crossChainAuctions host).exec s signers op = some t) :
    AuctionEffect s.world s.store t op :=
  Component.exec_yields (Q := fun t => AuctionEffect s.world s.store t op) (yields_auctionOp op s.store) he

theorem escrowedBy_call (he : (crossChainAuctions host).exec s signers op = some t) (id : Nat) (p : Address) :
    bidEscrowBy host id p ((s, .call signers op) :: h) =
      bidEscrowBy host id p h + if op.moves = some (id, p) then escrowMoved s op t else 0 := by
  rw [bidEscrowBy, Component.tally_call he]

theorem escrowed_call (he : (crossChainAuctions host).exec s signers op = some t) (id : Nat) :
    bidEscrow host id ((s, .call signers op) :: h) =
      bidEscrow host id h + if op.moves.map Prod.fst = some id then escrowMoved s op t else 0 := by
  rw [bidEscrow, Component.tally_call he]

/-- A call that moves no escrow of the auction. -/
theorem escrow_unmoved (he : (crossChainAuctions host).exec s signers op = some t)
    (hmoves : op.moves.map Prod.fst ≠ some id) :
    (∀ p, bidEscrowBy host id p ((s, .call signers op) :: h) = bidEscrowBy host id p h) ∧
      bidEscrow host id ((s, .call signers op) :: h) = bidEscrow host id h := by
  constructor
  · intro p
    rw [escrowedBy_call he, if_neg, add_zero]
    intro hmoved
    rw [hmoved] at hmoves
    exact hmoves rfl
  · rw [escrowed_call he, if_neg hmoves, add_zero]

/-- A call that moves the escrow of one bidder. -/
theorem escrow_moved (he : (crossChainAuctions host).exec s signers op = some t) (hmoves : op.moves = some (id, p)) :
    (∀ q, bidEscrowBy host id q ((s, .call signers op) :: h) =
      bidEscrowBy host id q h + if q = p then escrowMoved s op t else 0) ∧
      bidEscrow host id ((s, .call signers op) :: h) = bidEscrow host id h + escrowMoved s op t := by
  constructor
  · intro q
    rw [escrowedBy_call he, hmoves]
    simp only [Option.some.injEq, Prod.mk.injEq, true_and, eq_comm]
  · rw [escrowed_call he, hmoves]
    simp

theorem occurred_other (he : (crossChainAuctions host).exec s signers op = some t) {q : AuctionOp → Prop}
    (hop : ¬ q op) : (crossChainAuctions host).Occurred q ((s, .call signers op) :: h) ↔
      (crossChainAuctions host).Occurred q h := by
  rw [Component.occurred_call he]
  exact or_iff_right hop

/-- What a call leaves alone: every other auction. -/
theorem auction_frame (he : (crossChainAuctions host).exec s signers op = some t) (hne : id ≠ op.target s.world.now) :
    t.auctions.crossChainAuction id = s.store.auctions.crossChainAuction id ∧
      t.auctions.auctionBid id = s.store.auctions.auctionBid id ∧
      t.auctions.auctionSettlement id = s.store.auctions.auctionSettlement id := by
  cases auctionEffect_of he with
  | created _ _ _ hauction hbid hsettlement =>
    exact ⟨(congrFun hauction id).trans (update_of_ne hne _ _), congrFun hbid id,
      congrFun hsettlement id⟩
  | bid _ _ _ _ _ _ _ hauction hbid hsettlement =>
    exact ⟨(congrFun hauction id).trans (update_of_ne hne _ _), (congrFun hbid id).trans (update_of_ne hne _ _),
      congrFun hsettlement id⟩
  | refunded _ _ _ hauction hbid hsettlement =>
    exact ⟨congrFun hauction id, (congrFun hbid id).trans (update_of_ne hne _ _),
      congrFun hsettlement id⟩
  | settled _ _ hauction hbid hsettlement =>
    exact ⟨(congrFun hauction id).trans (update_of_ne hne _ _), congrFun hbid id,
      (congrFun hsettlement id).trans (update_of_ne hne _ _)⟩
  | extended _ hauction hbid hsettlement =>
    exact ⟨(congrFun hauction id).trans (update_of_ne hne _ _), congrFun hbid id,
      congrFun hsettlement id⟩
  | cancelled _ _ hauction hbid hsettlement =>
    exact ⟨(congrFun hauction id).trans (update_of_ne hne _ _), (congrFun hbid id).trans (update_of_ne hne _ _),
      congrFun hsettlement id⟩

theorem AuctionBooks.other (hb : AuctionBooks host h s.world.contract s.store.auctions id)
    (he : (crossChainAuctions host).exec s signers op = some t) (hne : id ≠ op.target s.world.now) :
    AuctionBooks host ((s, .call signers op) :: h) s.world.contract t.auctions id := by
  obtain ⟨hauction, hbid, hsettlement⟩ := auction_frame he hne
  have hmoves : op.moves.map Prod.fst ≠ some id := by
    cases op <;> simp_all [AuctionOp.moves, AuctionOp.target, eq_comm]
  have hsettles : ¬ op.Settles id := by
    rintro ⟨_, rfl⟩
    exact hne rfl
  have hcancels : ¬ op.Cancels id := by
    rintro ⟨_, rfl⟩
    exact hne rfl
  obtain ⟨hescrow, htotal⟩ := escrow_unmoved (h := h) he hmoves
  constructor
  · intro p
    rw [hescrow, hbid]
    exact hb.escrow p
  · rw [htotal, hbid]
    exact hb.total
  · rw [hbid]
    exact hb.amount
  · rw [hauction, hbid, hsettlement]
    exact hb.absent
  · rw [hauction, hbid]
    exact hb.leading
  · rw [occurred_other he hsettles, hsettlement]
    exact hb.settled
  · rw [occurred_other he hcancels, hauction, hsettlement]
    exact hb.cancelled
  · rw [hauction, hsettlement]
    exact hb.closed

/-! ### The calls on an auction -/

/-- No auction is created in the second of another one, no bid is made on an auction
that has ended early, and none is cancelled that has a leading bid. -/
def EscrowSafe (s : Situated World AuctionStore) : AuctionOp → Prop
  | .createCrossChainAuction .. => s.store.auctions.crossChainAuction s.world.now = none
  | .placeBid id _ _ _ _ => ∀ a ∈ s.store.auctions.crossChainAuction id, a.settled = false
  | .cancelAuction _ id => ∀ a ∈ s.store.auctions.crossChainAuction id, ∀ p ∈ a.highestBidder,
      openBid (s.store.auctions.auctionBid id p) = 0
  | _ => True

instance (s : Situated World AuctionStore) (op : AuctionOp) : Decidable (EscrowSafe s op) := by
  unfold EscrowSafe
  split <;> infer_instance

theorem openBid_open {b : Bid} (hopen : b.refunded = false) : openBid (some b) = b.amount := by
  simp [openBid, hopen]

theorem openBid_refunded (b : Bid) : openBid (some { b with refunded := true }) = 0 := by
  simp [openBid]

/-- Marking a leading bid that is already refunded changes no escrow. -/
theorem openBid_unwound {bids : Address → Option Bid} {leader : Option Address}
    (hleader : ∀ p ∈ leader, openBid (bids p) = 0) :
    (fun p => openBid (unwoundBids bids leader p)) = fun p => openBid (bids p) := by
  funext p
  cases leader with
  | none => rfl
  | some q =>
    have hzero := hleader q rfl
    cases hq : bids q with
    | none => simp [unwoundBids, hq]
    | some b =>
      rw [hq] at hzero
      simp only [unwoundBids, hq, update_apply]
      split
      case isTrue heq => rw [heq, hq, hzero, openBid_refunded]
      case isFalse => rfl

theorem unwoundBids_amount {bids : Address → Option Bid} {leader : Option Address} {b : Bid}
    (hb : unwoundBids bids leader p = some b) : ∃ b', bids p = some b' ∧ b'.amount = b.amount := by
  cases leader with
  | none => exact ⟨b, hb, rfl⟩
  | some q =>
    cases hq : bids q with
    | none =>
      simp only [unwoundBids, hq] at hb
      exact ⟨b, hb, rfl⟩
    | some b' =>
      simp only [unwoundBids, hq, update_apply] at hb
      split at hb
      case isTrue heq =>
        cases hb
        exact ⟨b', heq ▸ hq, rfl⟩
      case isFalse => exact ⟨b, hb, rfl⟩

/-- A call that writes the record of the auction and no bid. -/
theorem AuctionBooks.rewritten (hb : AuctionBooks host h s.world.contract s.store.auctions id)
    (he : (crossChainAuctions host).exec s signers op = some t) (hmoves : op.moves.map Prod.fst ≠ some id)
    (hsettles : ¬ op.Settles id) (hcancels : ¬ op.Cancels id) {a' : CrossChainAuction}
    (hauction : t.auctions.crossChainAuction id = some a')
    (hbid : t.auctions.auctionBid id = s.store.auctions.auctionBid id)
    (hsettlement : t.auctions.auctionSettlement id = s.store.auctions.auctionSettlement id)
    (hleading : 0 ≤ a'.highestBid ∧ ∀ p, openBid (s.store.auctions.auctionBid id p) ≤ a'.highestBid)
    (hstatus : a'.settled = true ↔ ∃ a, s.store.auctions.crossChainAuction id = some a ∧ a.settled = true) :
    AuctionBooks host ((s, .call signers op) :: h) s.world.contract t.auctions id := by
  obtain ⟨hescrow, htotal⟩ := escrow_unmoved (h := h) he hmoves
  constructor
  · intro p
    rw [hescrow, hbid]
    exact hb.escrow p
  · rw [htotal, hbid]
    exact hb.total
  · rw [hbid]
    exact hb.amount
  · rw [hauction]
    intro hnone
    cases hnone
  · rw [hauction, hbid]
    rintro _ ⟨⟩
    exact hleading
  · rw [occurred_other he hsettles, hsettlement]
    exact hb.settled
  · rw [occurred_other he hcancels, hauction, hsettlement, hb.cancelled]
    constructor
    · rintro ⟨a, ha, hclosed, hnone⟩
      exact ⟨a', rfl, hstatus.2 ⟨a, ha, hclosed⟩, hnone⟩
    · rintro ⟨_, ⟨⟩, hclosed, hnone⟩
      obtain ⟨a, ha, hclosed⟩ := hstatus.1 hclosed
      exact ⟨a, ha, hclosed, hnone⟩
  · rw [hauction, hsettlement]
    rintro _ ⟨⟩ hsome
    cases hold : s.store.auctions.crossChainAuction id with
    | none => exact (hsome (hb.absent hold).2).elim
    | some a => exact hstatus.2 ⟨a, hold, hb.closed a hold hsome⟩

/-- A call that writes the bid of one bidder and moves its escrow. -/
theorem AuctionBooks.moved (hb : AuctionBooks host h s.world.contract s.store.auctions id)
    (he : (crossChainAuctions host).exec s signers op = some t) (hmoves : op.moves = some (id, p))
    {a' : CrossChainAuction} (ha : s.store.auctions.crossChainAuction id = some a)
    (hauction : t.auctions.crossChainAuction id = some a') (hstatus : a'.settled = a.settled) {b : Bid}
    (hbid : t.auctions.auctionBid id = update (s.store.auctions.auctionBid id) p (some b))
    (hsettlement : t.auctions.auctionSettlement = s.store.auctions.auctionSettlement)
    (hmoved : escrowMoved s op t = openBid (some b) - openBid (s.store.auctions.auctionBid id p))
    (hamount : 0 < b.amount ∧ p ≠ s.world.contract) (hhigher : a.highestBid ≤ a'.highestBid)
    (hle : openBid (some b) ≤ a'.highestBid) :
    AuctionBooks host ((s, .call signers op) :: h) s.world.contract t.auctions id := by
  obtain ⟨hescrow, htotal⟩ := escrow_moved (h := h) he hmoves
  obtain ⟨hnonneg, hleading⟩ := hb.leading a ha
  have hsettles : ¬ op.Settles id := by
    rintro ⟨_, rfl⟩
    cases hmoves
  have hcancels : ¬ op.Cancels id := by
    rintro ⟨_, rfl⟩
    cases hmoves
  constructor
  · intro q
    rw [hescrow, hbid, hb.escrow q, update_apply]
    split
    case isTrue heq =>
      rw [heq, hmoved]
      omega
    case isFalse => exact add_zero _
  · rw [htotal, hbid]
    refine (hb.total.update_entry p (some b)).congr rfl ?_
    omega
  · intro q b' hb'
    rw [hbid, update_apply] at hb'
    split at hb'
    case isTrue heq =>
      cases hb'
      rw [heq]
      exact hamount
    case isFalse => exact hb.amount q b' hb'
  · rw [hauction]
    intro hnone
    cases hnone
  · rw [hauction, hbid]
    rintro _ ⟨⟩
    refine ⟨hnonneg.trans hhigher, fun q => ?_⟩
    rw [update_apply]
    split
    · exact hle
    · exact (hleading q).trans hhigher
  · rw [occurred_other he hsettles, hsettlement]
    exact hb.settled
  · rw [occurred_other he hcancels, hauction, hsettlement, hb.cancelled, ha]
    simp [hstatus]
  · rw [hauction, hsettlement]
    rintro _ ⟨⟩ hsome
    rw [hstatus]
    exact hb.closed a ha hsome

theorem AuctionBooks.settle (hb : AuctionBooks host h s.world.contract s.store.auctions id)
    (he : (crossChainAuctions host).exec s signers op = some t) (hop : op.Settles id)
    (ha : s.store.auctions.crossChainAuction id = some a) (hopen : a.settled = false) {x : AuctionSettlement}
    (hauction : t.auctions.crossChainAuction id = some { a with settled := true })
    (hbid : t.auctions.auctionBid id = s.store.auctions.auctionBid id)
    (hsettlement : t.auctions.auctionSettlement id = some x) :
    AuctionBooks host ((s, .call signers op) :: h) s.world.contract t.auctions id := by
  obtain ⟨signers', rfl⟩ := hop
  have hmoves : (AuctionOp.settleAuction signers' id).moves.map Prod.fst ≠ some id := by simp [AuctionOp.moves]
  obtain ⟨hescrow, htotal⟩ := escrow_unmoved (h := h) he hmoves
  constructor
  · intro p
    rw [hescrow, hbid]
    exact hb.escrow p
  · rw [htotal, hbid]
    exact hb.total
  · rw [hbid]
    exact hb.amount
  · rw [hauction]
    intro hnone
    cases hnone
  · rw [hauction, hbid]
    rintro _ ⟨⟩
    exact hb.leading a ha
  · rw [Component.occurred_call he, hsettlement]
    exact iff_of_true (.inl ⟨signers', rfl⟩) (by simp)
  · rw [occurred_other he (by rintro ⟨_, ⟨⟩⟩), hb.cancelled, ha, hsettlement]
    simp [hopen]
  · rw [hauction]
    rintro _ ⟨⟩ -
    rfl

theorem AuctionBooks.cancel (hb : AuctionBooks host h s.world.contract s.store.auctions id)
    (he : (crossChainAuctions host).exec s signers op = some t) (hop : op.Cancels id)
    (ha : s.store.auctions.crossChainAuction id = some a) (hopen : a.settled = false)
    (hleader : ∀ p ∈ a.highestBidder, openBid (s.store.auctions.auctionBid id p) = 0)
    (hauction : t.auctions.crossChainAuction id = some { a with settled := true })
    (hbid : t.auctions.auctionBid id = unwoundBids (s.store.auctions.auctionBid id) a.highestBidder)
    (hsettlement : t.auctions.auctionSettlement id = s.store.auctions.auctionSettlement id) :
    AuctionBooks host ((s, .call signers op) :: h) s.world.contract t.auctions id := by
  obtain ⟨signers', rfl⟩ := hop
  have hmoves : (AuctionOp.cancelAuction signers' id).moves.map Prod.fst ≠ some id := by simp [AuctionOp.moves]
  obtain ⟨hescrow, htotal⟩ := escrow_unmoved (h := h) he hmoves
  have hsame := openBid_unwound hleader
  have hnone : s.store.auctions.auctionSettlement id = none := by
    by_contra hsome
    rw [hb.closed a ha hsome] at hopen
    cases hopen
  constructor
  · intro p
    rw [hescrow, hbid, hb.escrow p]
    exact (congrFun hsame p).symm
  · rw [htotal, hbid, hsame]
    exact hb.total
  · intro p b hp
    rw [hbid] at hp
    obtain ⟨b', hb', hamount⟩ := unwoundBids_amount hp
    rw [← hamount]
    exact hb.amount p b' hb'
  · rw [hauction]
    intro habsent
    cases habsent
  · rw [hauction, hbid]
    rintro _ ⟨⟩
    obtain ⟨hnonneg, hleading⟩ := hb.leading a ha
    exact ⟨hnonneg, fun p => (congrFun hsame p).trans_le (hleading p)⟩
  · rw [occurred_other he (by rintro ⟨_, ⟨⟩⟩), hsettlement]
    exact hb.settled
  · rw [Component.occurred_call he, hauction, hsettlement, hnone]
    exact iff_of_true (.inl ⟨signers', rfl⟩) ⟨_, rfl, rfl, rfl⟩
  · rw [hauction]
    rintro _ ⟨⟩ -
    rfl

theorem AuctionBooks.call (hb : AuctionBooks host h s.world.contract s.store.auctions id)
    (hid : op.target s.world.now = id) (hok : EscrowSafe s op)
    (he : (crossChainAuctions host).exec s signers op = some t) :
    AuctionBooks host ((s, .call signers op) :: h) s.world.contract t.auctions id := by
  cases auctionEffect_of he with
  | @created _ _ _ _ _ _ _ a hopen hzero hnobody hauction hbid hsettlement =>
    obtain rfl : s.world.now = id := hid
    have hnone : s.store.auctions.crossChainAuction s.world.now = none := hok
    obtain ⟨hnobids, -⟩ := hb.absent hnone
    refine hb.rewritten he (by simp [AuctionOp.moves]) (by rintro ⟨_, ⟨⟩⟩) (by rintro ⟨_, ⟨⟩⟩)
      (by rw [hauction, update_self]) (congrFun hbid _) (congrFun hsettlement _) ?_ ?_
    · rw [hzero, hnobids]
      exact ⟨le_rfl, fun _ => le_rfl⟩
    · refine iff_of_false (by simp [hopen]) ?_
      rintro ⟨a', ha', -⟩
      cases hnone.symm.trans ha'
  | @bid id' p x _ _ a b count ha hx hp hhigher hamount hopen hauction hbid hsettlement hsent =>
    obtain rfl : id' = id := hid
    have hold : openBid (s.store.auctions.auctionBid id' p) ≤ a.highestBid := (hb.leading a ha).2 p
    have hnew : t.auctions.crossChainAuction id' =
        some { a with highestBid := x, highestBidder := some p, bidCount := count } := by
      rw [hauction, update_self]
    have hvalue : openBid (some b) = x := by rw [openBid_open hopen, hamount]
    refine hb.moved he rfl ha hnew rfl (by rw [hbid, update_self]) hsettlement ?_ ⟨hamount ▸ hx, hp⟩ hhigher.le
      hvalue.le
    rw [hvalue]
    simp only [escrowMoved, ha, Option.elim_some, hsent]
    omega
  | @refunded id' p a b ha hb' hopen hauction hbid hsettlement hsent =>
    obtain rfl : id' = id := hid
    have hold : openBid (s.store.auctions.auctionBid id' p) = b.amount := by rw [hb', openBid_open hopen]
    have hnew : t.auctions.auctionBid id' =
        update (s.store.auctions.auctionBid id') p (some { b with refunded := true }) := by
      rw [hbid, update_self]
    refine hb.moved he rfl ha (by rw [hauction]; exact ha) rfl hnew hsettlement ?_ (hb.amount p b hb') le_rfl ?_
    · rw [openBid_refunded]
      simp only [escrowMoved, ha, Option.elim_some, hsent]
      omega
    · rw [openBid_refunded]
      exact (hb.leading a ha).1
  | @settled signers' id' a x ha hopen hauction hbid hsettlement =>
    obtain rfl : id' = id := hid
    exact hb.settle he ⟨signers', rfl⟩ ha hopen (by rw [hauction, update_self]) (congrFun hbid _)
      (by rw [hsettlement, update_self])
  | @extended signers' id' newEnd a ha hauction hbid hsettlement =>
    obtain rfl : id' = id := hid
    have hnew : t.auctions.crossChainAuction id' = some { a with auctionEnd := newEnd } := by
      rw [hauction, update_self]
    refine hb.rewritten he (by simp [AuctionOp.moves]) (by rintro ⟨_, ⟨⟩⟩) (by rintro ⟨_, ⟨⟩⟩) hnew
      (congrFun hbid _) (congrFun hsettlement _) (hb.leading a ha) ⟨fun hclosed => ⟨a, ha, hclosed⟩, ?_⟩
    rintro ⟨a', ha', hclosed⟩
    cases ha.symm.trans ha'
    exact hclosed
  | @cancelled signers' id' a ha hopen hauction hbid hsettlement =>
    obtain rfl : id' = id := hid
    exact hb.cancel he ⟨signers', rfl⟩ ha hopen (hok a ha) (by rw [hauction, update_self])
      (by rw [hbid, update_self]) (congrFun hsettlement _)

end

/-! ## The escrow is exact -/

def AuctionOp.Bids (id : Nat) (op : AuctionOp) : Prop :=
  ∃ p x chain attestation, op = .placeBid id p x chain attestation

/-- The call does not create an auction in place of another one. -/
def CreatesAnew (s : Situated World AuctionStore) : AuctionOp → Prop
  | .createCrossChainAuction .. => s.store.auctions.crossChainAuction s.world.now = none
  | _ => True

/-- The open bids are what is in escrow; whoever does not lead, or has bid on an
auction that was cancelled, gets its escrow back once; no bid is accepted after the
end, and no auction replaces another one. -/
structure AuctionEscrow (host : BridgeHost) (h : AuctionHistory) (s : Situated World AuctionStore) : Prop where
  escrow : ∀ id, Totals (fun p => openBid (s.store.auctions.auctionBid id p)) (bidEscrow host id h)
  refund : ∀ id p a, s.store.auctions.crossChainAuction id = some a → 0 < bidEscrowBy host id p h →
    a.highestBidder ≠ some p ∨ (crossChainAuctions host).Occurred (AuctionOp.Cancels id) h →
    ∀ signers : List Address, p ∈ signers → bidEscrowBy host id p h ≤ s.store.bank.balance a.token s.world.contract →
    ∃ t, (crossChainAuctions host).exec s signers (.claimRefund id p) = some t ∧
      bidEscrowBy host id p ((s, .call signers (.claimRefund id p)) :: h) = 0 ∧
      ∀ signers', (crossChainAuctions host).exec ⟨s.world, t⟩ signers' (.claimRefund id p) = none
  closed : h.Pairwise fun later earlier => ∀ id, (crossChainAuctions host).Did (AuctionOp.Bids id) later →
    ¬ (crossChainAuctions host).Did (fun op => op.Settles id ∨ op.Cancels id) earlier
  kept : Along ((crossChainAuctions host).WhenDone CreatesAnew) h

/-- What the safe calls keep, for all auctions. -/
structure AuctionsSound (host : BridgeHost) (h : AuctionHistory) (s : Situated World AuctionStore) : Prop where
  books : ∀ id, AuctionBooks host h s.world.contract s.store.auctions id
  closed : h.Pairwise fun later earlier => ∀ id, (crossChainAuctions host).Did (AuctionOp.Bids id) later →
    ¬ (crossChainAuctions host).Did (fun op => op.Settles id ∨ op.Cancels id) earlier
  kept : Along ((crossChainAuctions host).WhenDone CreatesAnew) h

section

variable {host : BridgeHost} {h : AuctionHistory} {s : Situated World AuctionStore} {signers : List Address}
  {op : AuctionOp} {t : AuctionStore} {id : Nat} {p : Address} {a : CrossChainAuction}

/-- An auction has ended by a call exactly if its record says so. -/
theorem AuctionBooks.ended_iff {contract : Address} {g : Auctions} (hb : AuctionBooks host h contract g id) :
    (∃ e ∈ h, (crossChainAuctions host).Did (fun op => op.Settles id ∨ op.Cancels id) e) ↔
      ∃ a, g.crossChainAuction id = some a ∧ a.settled = true := by
  have hsplit : (∃ e ∈ h, (crossChainAuctions host).Did (fun op => op.Settles id ∨ op.Cancels id) e) ↔
      (crossChainAuctions host).Occurred (AuctionOp.Settles id) h ∨
        (crossChainAuctions host).Occurred (AuctionOp.Cancels id) h := by
    simp only [Component.Occurred, Component.Did, and_or_left, exists_or]
  rw [hsplit, hb.settled, hb.cancelled]
  constructor
  · rintro (hsome | ⟨a, ha, hclosed, -⟩)
    · cases ha : g.crossChainAuction id with
      | none => exact (hsome (hb.absent ha).2).elim
      | some a => exact ⟨a, rfl, hb.closed a ha hsome⟩
    · exact ⟨a, ha, hclosed⟩
  · rintro ⟨a, ha, hclosed⟩
    by_cases hnone : g.auctionSettlement id = none
    · exact .inr ⟨a, ha, hclosed, hnone⟩
    · exact .inl hnone

theorem claimRefund_goes {b : Bid} (ha : s.store.auctions.crossChainAuction id = some a)
    (hb : s.store.auctions.auctionBid id p = some b) (hopen : b.refunded = false) (hamount : 0 < b.amount)
    (hp : p ≠ s.world.contract) (hsigned : p ∈ signers)
    (hfree : a.highestBidder ≠ some p ∨ a.settled = true ∧ s.store.auctions.auctionSettlement id = none)
    (hfunds : b.amount ≤ s.store.bank.balance a.token s.world.contract) :
    ∃ t, (crossChainAuctions host).exec s signers (.claimRefund id p) = some t := by
  suffices hgoes : Goes (claimRefund id p) { s.world with signers } s.store fun _ _ => True by
    obtain ⟨_, t, hrun, -⟩ := hgoes
    exact ⟨t, Component.exec_eq_some_iff.2 ⟨_, _, hrun, rfl⟩⟩
  simp only [claimRefund, loadAuction, setBid, yields_parts, goes_bind, goes_zoom, goes_requireAuth, goes_require,
    goes_look, goes_orFail, goes_alter, goes_pay]
  refine ⟨⟨hsigned, hp⟩, a, ha, b, hb, hopen, ?_, ?_, ⟨hamount.le, hfunds⟩, trivial⟩
  · rintro ⟨hsettlement, hleads⟩
    rcases hfree with hnot | ⟨-, hnone⟩
    · exact hnot hleads
    · change (s.store.auctions.auctionSettlement id).isSome = true at hsettlement
      rw [hnone] at hsettlement
      cases hsettlement
  · rintro ⟨hunsettled, hleads⟩
    rcases hfree with hnot | ⟨hsettled, -⟩
    · exact hnot hleads
    · rw [hsettled] at hunsettled
      cases hunsettled

/-- A refund empties the bidder's escrow, and there is no second one. -/
theorem AuctionBooks.refund (hb : AuctionBooks host h s.world.contract s.store.auctions id)
    (ha : s.store.auctions.crossChainAuction id = some a) (hescrow : 0 < bidEscrowBy host id p h)
    (hfree : a.highestBidder ≠ some p ∨ (crossChainAuctions host).Occurred (AuctionOp.Cancels id) h)
    (hsigned : p ∈ signers) (hfunds : bidEscrowBy host id p h ≤ s.store.bank.balance a.token s.world.contract) :
    ∃ t, (crossChainAuctions host).exec s signers (.claimRefund id p) = some t ∧
      bidEscrowBy host id p ((s, .call signers (.claimRefund id p)) :: h) = 0 ∧
      ∀ signers', (crossChainAuctions host).exec ⟨s.world, t⟩ signers' (.claimRefund id p) = none := by
  rw [hb.escrow p] at hescrow hfunds
  cases hbid : s.store.auctions.auctionBid id p with
  | none =>
    rw [hbid] at hescrow
    cases hescrow
  | some b =>
    rw [hbid] at hescrow hfunds
    have hopen : b.refunded = false := by
      cases hrefunded : b.refunded with
      | false => rfl
      | true => simp [openBid, hrefunded] at hescrow
    rw [openBid_open hopen] at hescrow hfunds
    have hfree' : a.highestBidder ≠ some p ∨ a.settled = true ∧ s.store.auctions.auctionSettlement id = none := by
      refine hfree.imp_right fun hcancelled => ?_
      obtain ⟨a', ha', hsettled, hnone⟩ := hb.cancelled.1 hcancelled
      cases ha.symm.trans ha'
      exact ⟨hsettled, hnone⟩
    obtain ⟨t, he⟩ := @claimRefund_goes host s signers id p a b ha hbid hopen hescrow
      (hb.amount p b hbid).2 hsigned hfree' hfunds
    have hsafe : EscrowSafe s (.claimRefund id p) := trivial
    have hafter := hb.call rfl hsafe he
    cases auctionEffect_of he with
    | @refunded _ _ a' b' ha' hb' hopen' hauction hbids hsettlement hsent =>
      have hrefunded : t.auctions.auctionBid id p = some { b' with refunded := true } := by
        rw [hbids]
        simp
      refine ⟨t, he, ?_, fun signers' => ?_⟩
      · rw [hafter.escrow p, hrefunded, openBid_refunded]
      · -- the record says that it is refunded
        cases hagain : (crossChainAuctions host).exec ⟨s.world, t⟩ signers' (.claimRefund id p) with
        | none => rfl
        | some u =>
          cases auctionEffect_of hagain with
          | refunded _ hb'' hopen'' =>
            rw [hrefunded] at hb''
            cases hb''
            cases hopen''

theorem AuctionsSound.call (hs : AuctionsSound host h s) (hok : EscrowSafe s op)
    (he : (crossChainAuctions host).exec s signers op = some t) :
    AuctionsSound host ((s, .call signers op) :: h) ⟨s.world, t⟩ := by
  refine ⟨fun id => ?_, List.pairwise_cons.2 ⟨fun earlier hmem id hbids hended => ?_, hs.closed⟩,
    List.forall_mem_cons.2 ⟨Component.whenDone_call ?_ signers, hs.kept⟩⟩
  · by_cases hid : op.target s.world.now = id
    · exact (hs.books id).call hid hok he
    · exact (hs.books id).other he (Ne.symm hid)
  · obtain ⟨q, x, chain, attestation, rfl⟩ := (Component.did_call he _).1 hbids
    obtain ⟨a, ha, hclosed⟩ := (hs.books id).ended_iff.1 ⟨earlier, hmem, hended⟩
    rw [hok a ha] at hclosed
    cases hclosed
  · cases op with
    | createCrossChainAuction => exact hok
    | placeBid => trivial
    | claimRefund => trivial
    | settleAuction => trivial
    | extendAuction => trivial
    | cancelAuction => trivial

theorem AuctionsSound.idle {e : Event World (List Address) AuctionStore AuctionOp} {s' : Situated World AuctionStore}
    (hs : AuctionsSound host h s) (hnone : (crossChainAuctions host).done s e = none)
    (hstore : s'.store.auctions = s.store.auctions) (hcontract : s'.world.contract = s.world.contract) :
    AuctionsSound host ((s, e) :: h) s' := by
  refine ⟨fun id => ?_, List.pairwise_cons.2 ⟨fun _ _ id hbids => (Component.did_idle hnone _ hbids).elim, hs.closed⟩,
    List.forall_mem_cons.2 ⟨?_, hs.kept⟩⟩
  · obtain ⟨hescrow, htotal, hamount, habsent, hleading, hsettled, hcancelled, hclosed⟩ := hs.books id
    rw [hstore, hcontract]
    refine ⟨fun p => ?_, ?_, hamount, habsent, hleading, ?_, ?_, hclosed⟩
    · rw [bidEscrowBy, Component.tally_idle hnone]
      exact hescrow p
    · rw [bidEscrow, Component.tally_idle hnone]
      exact htotal
    · rw [Component.occurred_idle hnone]
      exact hsettled
    · rw [Component.occurred_idle hnone]
      exact hcancelled
  · intro d hd
    rw [hnone] at hd
    cases hd

theorem AuctionsSound.unchanged {e : Event World (List Address) AuctionStore AuctionOp}
    {s' : Situated World AuctionStore} (hs : AuctionsSound host h s)
    (hnone : (crossChainAuctions host).done s e = none)
    (hsame : s' = s ∨ (crossChainAuctions host).drift s.world s.store s'.world s'.store) :
    AuctionsSound host ((s, e) :: h) s' := by
  rcases hsame with rfl | ⟨-, hcontract, hauctions⟩
  · exact hs.idle hnone rfl rfl
  · exact hs.idle hnone hauctions hcontract

theorem AuctionsSound.escrowExact (hs : AuctionsSound host h s) : AuctionEscrow host h s := by
  refine ⟨fun id => (hs.books id).total, ?_, hs.closed, hs.kept⟩
  intro id p a ha hescrow hfree signers hsigned hfunds
  exact (hs.books id).refund ha hescrow hfree hsigned hfunds

theorem auctionsSound_start (world : World) (bank : Ledger) (bridges : Bridges) :
    AuctionsSound host [] (auctionsStart world bank bridges) := by
  refine ⟨fun id => ?_, .nil, fun _ hmem => (List.not_mem_nil hmem).elim⟩
  constructor
  · intro p
    rfl
  · exact .zero
  · intro p b hb
    cases hb
  · intro _
    exact ⟨rfl, rfl⟩
  · intro a ha
    cases ha
  · exact iff_of_false (Component.not_occurred_nil _) (fun hsome => hsome rfl)
  · refine iff_of_false (Component.not_occurred_nil _) ?_
    rintro ⟨a, ha, -⟩
    cases ha
  · intro a ha
    cases ha

theorem auctionsSound_run {world : World} {bank : Ledger} {bridges : Bridges}
    (hr : Run (crossChainAuctions host).Step (auctionsStart world bank bridges) h s)
    (hok : Along ((crossChainAuctions host).WhenDone EscrowSafe) h) : AuctionsSound host h s :=
  Component.inv_throughout (I := AuctionsSound host)
    (auctionsSound_start world bank bridges) (fun _ hs hsafe he => hs.call hsafe he)
    (fun hs hnone hsame => hs.unchanged hnone hsame) hr hok.throughout

/-- A call after which the escrow is exact was a safe one. -/
theorem AuctionsSound.safe_of_exact (hs : AuctionsSound host h s)
    (he : (crossChainAuctions host).exec s signers op = some t)
    (hexact : AuctionEscrow host ((s, .call signers op) :: h) ⟨s.world, t⟩) : EscrowSafe s op := by
  cases op with
  | createCrossChainAuction =>
    exact hexact.kept _ List.mem_cons_self _ (Component.done_call he)
  | placeBid id q x chain attestation =>
    intro a ha
    by_contra hsettled
    have hended := (hs.books id).ended_iff.2 ⟨a, ha, by simpa using hsettled⟩
    obtain ⟨earlier, hmem, hdid⟩ := hended
    obtain ⟨hlater, -⟩ := List.pairwise_cons.1 hexact.closed
    exact hlater earlier hmem id ((Component.did_call he _).2 ⟨_, _, _, _, rfl⟩) hdid
  | claimRefund => trivial
  | settleAuction => trivial
  | extendAuction => trivial
  | cancelAuction signers' id =>
    intro a ha q hq
    have hbooks := hs.books id
    have hmoves : (AuctionOp.cancelAuction signers' id).moves.map Prod.fst ≠ some id := by simp [AuctionOp.moves]
    obtain ⟨-, htotal⟩ := escrow_unmoved (h := h) he hmoves
    cases auctionEffect_of he with
    | @cancelled _ _ a' ha' hopen hauction hbid hsettlement =>
      cases ha.symm.trans ha'
      have hbefore := hbooks.total
      have hafter := hexact.escrow id
      rw [htotal, hbid, update_self, show a.highestBidder = some q from hq] at hafter
      cases hlead : s.store.auctions.auctionBid id q with
      | none => rfl
      | some b =>
        -- the total would fall by the leading bid, which nobody was paid
        have hfallen := hbefore.update_entry q (some { b with refunded := true })
        simp only [unwoundBids, hlead] at hafter
        have hsum := hafter.sum.trans hfallen.sum.symm
        rw [openBid_refunded, hlead] at hsum
        omega

/-- The escrow of the auctions is exact throughout a run exactly if all its calls are safe. -/
theorem auction_escrow_iff {world : World} {bank : Ledger} {bridges : Bridges}
    (hr : Run (crossChainAuctions host).Step (auctionsStart world bank bridges) h s) :
    Always (AuctionEscrow host) h s ↔ Along ((crossChainAuctions host).WhenDone EscrowSafe) h := by
  rw [along_iff_throughout]
  refine Component.always_iff_of_inv (I := AuctionsSound host)
    (auctionsSound_start world bank bridges) (fun hs hok he => hs.call hok he) ?_ (fun hs => hs.escrowExact)
    (fun hs he hexact => hs.safe_of_exact he hexact) hr
  exact fun hs hnone hsame => hs.unchanged hnone hsame

end

/-! ## Two auctions -/

def sampleBridgeHost : BridgeHost :=
  { toXdr := fun _ => [], sha256 := fun _ => .replicate 32 0, ed25519Verify := fun _ _ _ => false }

/-- Account 1 creates an auction of 1000 seconds, and account 2 bids 50. -/
def openedAuction : List (Component.Act (List Address) AuctionOp) :=
  [.call [1] (.createCrossChainAuction [1] 9 500 100 1000 10 []), .call [2] (.placeBid 1000000 2 50 0 none)]

def afterAuction (acts : List (Component.Act (List Address) AuctionOp)) : Situated World AuctionStore :=
  (crossChainAuctions sampleBridgeHost).perform World.later (auctionsStart sampleWorld sampleBank .empty)
    (openedAuction ++ acts)

def auctionHistory (acts : List (Component.Act (List Address) AuctionOp)) : AuctionHistory :=
  (crossChainAuctions sampleBridgeHost).record World.later (auctionsStart sampleWorld sampleBank .empty) []
    (openedAuction ++ acts)

theorem run_auction (acts : List (Component.Act (List Address) AuctionOp)) :
    Run (crossChainAuctions sampleBridgeHost).Step (auctionsStart sampleWorld sampleBank .empty) (auctionHistory acts)
      (afterAuction acts) :=
  Component.run_perform (C := crossChainAuctions sampleBridgeHost) World.later
    (fun _ _ _ => ⟨Nat.le_add_right _ _, rfl, rfl⟩) .nil _

/-- Account 3 bids 80, account 2 raises to 100, account 3 gets its bid back, and the auction is settled. -/
def raisedAuction : List (Component.Act (List Address) AuctionOp) :=
  [.call [3] (.placeBid 1000000 3 80 0 none), .call [2] (.placeBid 1000000 2 100 0 none),
    .call [3] (.claimRefund 1000000 3), .wait 1000, .call [1] (.settleAuction [1] 1000000)]

theorem auction_escrow_raised :
    Always (AuctionEscrow sampleBridgeHost) (auctionHistory raisedAuction) (afterAuction raisedAuction) := by
  refine (auction_escrow_iff (run_auction raisedAuction)).2 ?_
  unfold Along
  decide +kernel

/-- The auction is cancelled: the 50 of account 2 stay in the contract. -/
theorem auction_escrow_stranded :
    ¬ ∀ host world bank bridges h s, Run (crossChainAuctions host).Step (auctionsStart world bank bridges) h s →
      Always (AuctionEscrow host) h s := by
  intro hclaim
  have hcancel : ((crossChainAuctions sampleBridgeHost).exec (afterAuction []) [1]
      (.cancelAuction [1] 1000000)).isSome := by decide +kernel
  have he := Component.exec_of_isSome hcancel
  have hexact := hclaim _ _ _ _ _ _ ((run_auction []).snoc (.call _ [1] (.cancelAuction [1] 1000000)))
  have hsafe : Along ((crossChainAuctions sampleBridgeHost).WhenDone EscrowSafe) (auctionHistory []) := by
    unfold Along
    decide +kernel
  have hcancelled := (auctionsSound_run (run_auction []) hsafe).safe_of_exact he hexact.last
  exact absurd hcancelled (by decide +kernel)

end QuorumCredit
