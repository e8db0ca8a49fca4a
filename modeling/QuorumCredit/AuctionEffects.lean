import QuorumCredit.CrossChainAuction
import QuorumCredit.Guards
/-!
# What the calls on an auction do

Each writes the record of one auction, or one bid of it, or both.
-/

open Host Function

namespace QuorumCredit

/-- The bid records after the leading bid is marked as refunded. -/
def unwoundBids (bids : Address → Option Bid) (highestBidder : Option Address) : Address → Option Bid :=
  match highestBidder with
  | some p =>
    match bids p with
    | some bid => update bids p (some { bid with refunded := true })
    | none => bids
  | none => bids

/-- What a call that goes through found and did. -/
inductive AuctionEffect (w : World) (s t : AuctionStore) : AuctionOp → Prop
  | created {signers borrower collateral token duration reserve chains} {a : CrossChainAuction} :
      a.settled = false → a.highestBid = 0 → a.highestBidder = none →
      t.auctions.crossChainAuction = update s.auctions.crossChainAuction w.now (some a) →
      t.auctions.auctionBid = s.auctions.auctionBid → t.auctions.auctionSettlement = s.auctions.auctionSettlement →
      AuctionEffect w s t (.createCrossChainAuction signers borrower collateral token duration reserve chains)
  | bid {id p x chain attestation} {a : CrossChainAuction} {b : Bid} (count : Nat) :
      s.auctions.crossChainAuction id = some a → 0 < x → p ≠ w.contract → a.highestBid < x →
      b.amount = x → b.refunded = false →
      t.auctions.crossChainAuction = update s.auctions.crossChainAuction id
        (some { a with highestBid := x, highestBidder := some p, bidCount := count }) →
      t.auctions.auctionBid =
        update s.auctions.auctionBid id (update (s.auctions.auctionBid id) p (some b)) →
      t.auctions.auctionSettlement = s.auctions.auctionSettlement →
      Bank.sent t.bank.log a.token p w.contract = Bank.sent s.bank.log a.token p w.contract +
        max (x - openBid (s.auctions.auctionBid id p)) 0 →
      AuctionEffect w s t (.placeBid id p x chain attestation)
  | refunded {id p} {a : CrossChainAuction} {b : Bid} : s.auctions.crossChainAuction id = some a →
      s.auctions.auctionBid id p = some b → b.refunded = false →
      t.auctions.crossChainAuction = s.auctions.crossChainAuction →
      t.auctions.auctionBid = update s.auctions.auctionBid id (update (s.auctions.auctionBid id) p
        (some { b with refunded := true })) →
      t.auctions.auctionSettlement = s.auctions.auctionSettlement →
      Bank.sent t.bank.log a.token w.contract p = Bank.sent s.bank.log a.token w.contract p + b.amount →
      AuctionEffect w s t (.claimRefund id p)
  | settled {signers id} {a : CrossChainAuction} {x : AuctionSettlement} : s.auctions.crossChainAuction id = some a →
      a.settled = false →
      t.auctions.crossChainAuction = update s.auctions.crossChainAuction id (some { a with settled := true }) →
      t.auctions.auctionBid = s.auctions.auctionBid →
      t.auctions.auctionSettlement = update s.auctions.auctionSettlement id (some x) →
      AuctionEffect w s t (.settleAuction signers id)
  | extended {signers id newEnd} {a : CrossChainAuction} : s.auctions.crossChainAuction id = some a →
      t.auctions.crossChainAuction = update s.auctions.crossChainAuction id (some { a with auctionEnd := newEnd }) →
      t.auctions.auctionBid = s.auctions.auctionBid → t.auctions.auctionSettlement = s.auctions.auctionSettlement →
      AuctionEffect w s t (.extendAuction signers id newEnd)
  | cancelled {signers id} {a : CrossChainAuction} : s.auctions.crossChainAuction id = some a → a.settled = false →
      t.auctions.crossChainAuction = update s.auctions.crossChainAuction id (some { a with settled := true }) →
      t.auctions.auctionBid =
        update s.auctions.auctionBid id (unwoundBids (s.auctions.auctionBid id) a.highestBidder) →
      t.auctions.auctionSettlement = s.auctions.auctionSettlement → AuctionEffect w s t (.cancelAuction signers id)

section

variable {ctx : Context} {host : BridgeHost}

theorem yields_placeBid (id : Nat) (p : Address) (x : Int) (chain : Nat) (attestation : Option BridgeAttestation)
    (s : AuctionStore) : Yields (placeBid host id p x chain attestation) ctx s fun _ t =>
      AuctionEffect ctx.toWorld s t (.placeBid id p x chain attestation) := by
  simp only [placeBid, loadAuction, setBid, saveAuction, escrowBid, yields_parts, yields_steps, yields_requireAuth,
    yields_i128, yields_u32]
  rintro ⟨-, hp⟩ hx
  refine (yields_true _ _ _).mono fun _ bridges _ => ?_
  intro a ha _ _ hhigher _
  rw [yields_ite]
  constructor
  · intro hraise
    rw [yields_collect]
    intro _ _ _
    refine .bid _ ha hx hp hhigher rfl rfl rfl rfl rfl ?_
    exact (Bank.sent_paid _ _ _ _ _).trans (congrArg (_ + ·) (max_eq_left hraise.le).symm)
  · intro hnone
    rw [yields_pure]
    intro _
    refine .bid _ ha hx hp hhigher rfl rfl rfl rfl rfl ?_
    exact (add_zero _).symm.trans (congrArg (_ + ·) (max_eq_right (le_of_not_gt hnone)).symm)

theorem yields_claimRefund (id : Nat) (p : Address) (s : AuctionStore) :
    Yields (claimRefund id p) ctx s fun _ t => AuctionEffect ctx.toWorld s t (.claimRefund id p) := by
  simp only [claimRefund, loadAuction, setBid, yields_parts, yields_steps, yields_requireAuth, yields_pay]
  intro _ a ha b hb hopen _ _ _ _
  refine .refunded ha hb hopen rfl rfl rfl ?_
  exact Bank.sent_paid _ _ _ _ _

theorem yields_unwindHighestBid (id : Nat) (leader : Option Address) (g : Auctions) :
    Yields (unwindHighestBid id leader) ctx g fun _ g' =>
      g' = { g with auctionBid := update g.auctionBid id (unwoundBids (g.auctionBid id) leader) } := by
  cases leader with
  | none => simp [unwindHighestBid, unwoundBids]
  | some p =>
    cases hb : g.auctionBid id p with
    | none => simp [unwindHighestBid, unwoundBids, hb]
    | some b => simp [unwindHighestBid, unwoundBids, hb, setBid]

theorem yields_auctionOp (op : AuctionOp) (s : AuctionStore) :
    Yields (op.run host) ctx s fun _ t => AuctionEffect ctx.toWorld s t op := by
  cases op with
  | createCrossChainAuction signers borrower collateral token duration reserve chains =>
    simp only [AuctionOp.run, createCrossChainAuction, saveAuction, discard, yields_parts, yields_steps,
      yields_approved, yields_u64]
    intro _ _ _ _ _
    exact .created rfl rfl rfl rfl rfl rfl
  | placeBid id p x chain attestation => exact yields_placeBid id p x chain attestation s
  | claimRefund id p => exact yields_claimRefund id p s
  | settleAuction signers id =>
    simp only [AuctionOp.run, settleAuction, loadAuction, saveAuction, yields_parts, yields_steps, yields_approved,
      yields_i128]
    intro _ a ha _ hopen _ _ _ _ _
    exact .settled ha hopen rfl rfl rfl
  | extendAuction signers id newEnd =>
    simp only [AuctionOp.run, extendAuction, loadAuction, saveAuction, yields_parts, yields_steps, yields_approved]
    intro _ a ha _ _
    exact .extended ha rfl rfl rfl
  | cancelAuction signers id =>
    simp only [AuctionOp.run, cancelAuction, loadAuction, saveAuction, yields_parts, yields_steps, yields_approved]
    intro _ a ha hopen
    refine (yields_unwindHighestBid id a.highestBidder _).mono ?_
    rintro _ _ rfl
    exact .cancelled ha hopen rfl rfl rfl

end

end QuorumCredit
