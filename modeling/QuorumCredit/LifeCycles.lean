import QuorumCredit.Host.Carries
import QuorumCredit.MiningRewards
import QuorumCredit.SyndicateEscrow
/-!
# Life cycles

The stages of a mining campaign and of a loan syndicate that no run takes back, and what
each of them settles.
-/

open Host Function

namespace QuorumCredit

/-! ## Mining campaigns -/

/-- Created, its terms are settled; ended, all but what is paid out; and cancelled, everything. -/
def MiningCampaign.stages : List (Stage MiningCampaign) :=
  [⟨_, fun _ => True, fun c => (c.campaignId, c.creator, c.token, c.incentivePool, c.startTimestamp, c.campaignType)⟩,
    ⟨_, (·.status = .ended), fun c => { c with distributed := 0 }⟩, ⟨_, (·.status = .cancelled), id⟩]

abbrev Mining.Carries (g g' : Mining) : Prop :=
  Host.Carries (Continues MiningCampaign.stages) g.miningCampaign g'.miningCampaign

theorem MiningEffect.carries {h : MiningHistory} {s : Situated World MiningStore} {t : MiningStore} {op : MiningOp}
    (hb : MiningBooks h s) (he : MiningEffect s.world s.store t op) : s.store.mining.Carries t.mining := by
  cases he with
  | created _ _ _ _ _ _ _ hcampaign =>
    rw [Mining.Carries, hcampaign]
    exact .add .refl (hb.numbered _ (Nat.lt_succ_self _)) _
  | recorded _ hc hactive _ _ _ hcampaign | ended hc hactive hcampaign | cancelled hc hactive hcampaign =>
    obtain rfl := hb.keyed _ _ hc
    rw [Mining.Carries, hcampaign]
    exact .set .refl hc (by simp [Continues, MiningCampaign.stages, hactive])
  | claimed hc hover _ hcampaign =>
    rw [Mining.Carries, hcampaign]
    refine .set .refl hc ?_
    rcases hover with hstatus | ⟨hstatus, -⟩
    all_goals simp [Continues, MiningCampaign.stages, hstatus]

/-- No run takes a campaign away or changes its terms, and none reopens it. -/
theorem campaigns_continue {world : World} {bank : Ledger} {h : MiningHistory} {s : Situated World MiningStore}
    (hr : Run liquidityMining.Step (miningStart world bank) h s) :
    Along (fun s' _ => s'.store.mining.Carries s.store.mining) h := by
  refine Component.along (Q := fun s t => s.mining.Carries t.mining) (fun _ => .refl .refl _) (.trans .trans)
    (fun hr he => ?_) (fun hd => ?_) hr
  · exact (miningEffect_of (books_miningRun hr) he).carries (books_miningRun hr)
  · rw [hd.2.2]
    exact .refl .refl _

theorem campaigns_continue_mined :
    Along (fun s' _ => s'.store.mining.Carries (afterMining [(2, 5)]).store.mining) (minedHistory [(2, 5)]) :=
  campaigns_continue (run_mined _)

/-! ## Loan syndicates -/

def LoanSyndication.terms (y : LoanSyndication) :=
  (y.syndicationId, y.totalAmount, y.loanPurpose, y.tokenAddress, y.createdAt)

/-- Created, its terms are settled; with the loan disbursed, its members; and repaid, cancelled
or defaulted, everything. -/
def LoanSyndication.stages : List (Stage LoanSyndication) :=
  [⟨_, fun _ => True, terms⟩,
    ⟨_, fun y => y.status = .active ∨ y.status = .repaid ∨ y.status = .defaulted,
      fun y => (y.loanId, y.disbursedAt, y.members.map (·.address))⟩, ⟨_, (·.Final), id⟩]

/-- A syndicate that has no loan yet has only its terms settled. -/
theorem LoanSyndication.continues_of_open {y y' : LoanSyndication} (hopen : y.status = .forming ∨ y.status = .ready)
    (hterms : y'.terms = y.terms) : Continues stages y y' := by
  rcases hopen with hstatus | hstatus
  all_goals simp [Continues, stages, Final, hstatus, hterms]

abbrev Syndications.Carries (g g' : Syndications) : Prop :=
  Host.Carries (Continues LoanSyndication.stages) g.loanSyndication g'.loanSyndication

theorem SyndicationEffect.carries {w : World} {s t : SyndicationStore} {op : SyndicationOp} {cfg : SyndicationConfig}
    (hreg : s.syndications.Registered cfg)
    (hfresh : s.syndications.loanSyndication (s.syndications.syndicationCounter + 1) = none)
    (he : SyndicationEffect w s t op) : s.syndications.Carries t.syndications := by
  rw [Syndications.Carries]
  cases he with
  | created _ ht =>
    rw [ht]
    exact .add .refl hfresh _
  | reapproved ht | repaid _ _ _ _ _ _ ht =>
    rw [ht]
    exact .refl .refl _
  | joined _ _ hy hforming _ _ _ _ _ _ _ ht | approved _ hy hforming _ _ _ ht =>
    rw [loan_of ht rfl (hreg.under hy) rfl]
    exact .set .refl hy (LoanSyndication.continues_of_open (.inl hforming) rfl)
  | left _ hy hopen _ _ ht | cancelled hy hopen ht =>
    rw [loan_of ht rfl (hreg.under hy) rfl]
    exact .set .refl hy (LoanSyndication.continues_of_open hopen rfl)
  | requested _ hy hready _ _ ht =>
    rw [loan_of ht rfl (hreg.under hy) rfl]
    exact .set .refl hy (LoanSyndication.continues_of_open (.inr hready) rfl)
  | repaidInFull _ _ _ hy hactive _ ht | defaultedEmpty hy hactive _ ht =>
    rw [loan_of ht rfl (hreg.under hy) rfl]
    exact .set .refl hy (by simp [Continues, LoanSyndication.stages, LoanSyndication.Final, hactive]; rfl)
  | defaulted hy hactive _ _ _ ht =>
    rw [loan_of ht (chargeRecords_keeps Syndications.loanSyndication fun _ _ _ _ => rfl) (hreg.under hy) rfl]
    refine .set .refl hy ?_
    simp [Continues, LoanSyndication.stages, LoanSyndication.Final, LoanSyndication.defaultedWith, hactive]
    rfl

/-- No run takes a syndicate away or changes its terms, its members once its loan is disbursed,
or anything of it once it is repaid, cancelled or defaulted. -/
theorem syndicates_continue {world : World} {bank : Ledger} {stored : Option SyndicationConfig}
    {h : SyndicationHistory} {s : Situated World SyndicationStore}
    (hr : Run syndicates.Step (syndicationStart world bank stored) h s)
    (hcfg : (stored.getD defaultSyndicationConfig).Valid) :
    Along (fun s' _ => s'.store.syndications.Carries s.store.syndications) h := by
  refine Component.along (Q := fun s t => s.syndications.Carries t.syndications) (fun _ => .refl .refl _)
    (.trans .trans) (fun hr he => ?_) (fun hd => ?_) hr
  · have hfresh := (escrow_run hcfg hr).fresh _ (Nat.lt_succ_self _)
    exact (syndicationEffect_of he).carries (registered_run hcfg hr) hfresh
  · rw [hd.2.2]
    exact .refl .refl _

theorem syndicates_continue_threeBorrow :
    let s := syndicationStart sampleWorld sampleBank none
    Along (fun s' _ => s'.store.syndications.Carries (syndicates.play s threeBorrow).store.syndications)
      (syndicates.trace s [] threeBorrow) :=
  syndicates_continue (Component.run_play _ .nil _) defaultSyndicationConfig_valid

end QuorumCredit
