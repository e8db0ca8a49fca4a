import QuorumCredit.LiquidityMining
import QuorumCredit.Guards
import QuorumCredit.Host.Shares
import QuorumCredit.Host.Script
/-!
# What liquidity mining pays

Weights change only while a campaign runs and claims are paid only after it, so a
claim pays the floor of the participant's share of the pool, and the pool always
holds it. Equal shares in a flat campaign are another matter: a participant's weight
grows by one with every call.
-/

open Host Function

namespace QuorumCredit

/-! ## What a call does -/

namespace Mining

def Keyed (g : Mining) : Prop := ∀ id c, g.miningCampaign id = some c → c.campaignId = id

/-- The incentive pool, shared by the recorded weights. -/
def pot (g : Mining) (id : Nat) (c : MiningCampaign) : Pot Address :=
  { weight := g.miningParticipation id, total := c.totalParticipation, whole := c.incentivePool }

/-- What a claim pays to a participant with the share `share`. -/
def payout (g : Mining) (id : Nat) (c : MiningCampaign) (p : Address) : Int :=
  max (min (subOrZero ((g.pot id c).share p) (g.miningClaimed id p)) (subOrZero c.incentivePool c.distributed)) 0

end Mining

/-- The campaign is over, by its status or by the time. -/
def MiningCampaign.Over (c : MiningCampaign) (now : Nat) : Prop :=
  c.status = .ended ∨ c.status = .active ∧ c.endTimestamp ≤ now

/-- What a call that goes through found and did. -/
inductive MiningEffect (w : World) (s t : MiningStore) : MiningOp → Prop
  | created {signers token pool duration campaignType} {c : MiningCampaign} : 0 < pool → FitsI128 pool →
      c.incentivePool = pool → c.campaignId = s.mining.miningCampaignCounter + 1 → c.distributed = 0 →
      c.totalParticipation = 0 → c.status = .active →
      t.mining.miningCampaign = update s.mining.miningCampaign (s.mining.miningCampaignCounter + 1) (some c) →
      t.mining.miningCampaignCounter = s.mining.miningCampaignCounter + 1 →
      t.mining.miningParticipation = s.mining.miningParticipation → t.mining.miningClaimed = s.mining.miningClaimed →
      MiningEffect w s t (.createMiningCampaign signers token pool duration campaignType)
  | recorded {id p x} {c : MiningCampaign} (count : Nat) : s.mining.miningCampaign id = some c → c.status = .active →
      w.now < c.endTimestamp → 0 < x → p ≠ w.contract →
      t.mining.miningCampaign = update s.mining.miningCampaign c.campaignId (some { c with
        participantCount := count, totalParticipation := c.totalParticipation + effectiveWeight c x }) →
      t.mining.miningCampaignCounter = s.mining.miningCampaignCounter →
      t.mining.miningParticipation = update s.mining.miningParticipation id (update (s.mining.miningParticipation id) p
        (s.mining.miningParticipation id p + effectiveWeight c x)) →
      t.mining.miningClaimed = s.mining.miningClaimed → MiningEffect w s t (.recordParticipation id p x)
  | claimed {id p} {c : MiningCampaign} : s.mining.miningCampaign id = some c → c.Over w.now →
      s.mining.miningParticipation id p ≠ 0 →
      t.mining.miningCampaign = update s.mining.miningCampaign id (some { c with
        status := .ended, distributed := c.distributed + s.mining.payout id c p }) →
      t.mining.miningCampaignCounter = s.mining.miningCampaignCounter →
      t.mining.miningParticipation = s.mining.miningParticipation →
      t.mining.miningClaimed = update s.mining.miningClaimed id (update (s.mining.miningClaimed id) p
        (s.mining.miningClaimed id p + s.mining.payout id c p)) →
      Bank.sent t.bank.log c.token w.contract p =
        Bank.sent s.bank.log c.token w.contract p + s.mining.payout id c p →
      Bank.outflow t.bank.log w.contract = Bank.outflow s.bank.log w.contract + s.mining.payout id c p →
      MiningEffect w s t (.claimMiningReward id p)
  | ended {signers id} {c : MiningCampaign} : s.mining.miningCampaign id = some c → c.status = .active →
      t.mining.miningCampaign = update s.mining.miningCampaign c.campaignId (some { c with
        status := .ended, endTimestamp := w.now }) →
      t.mining.miningCampaignCounter = s.mining.miningCampaignCounter →
      t.mining.miningParticipation = s.mining.miningParticipation → t.mining.miningClaimed = s.mining.miningClaimed →
      MiningEffect w s t (.endMiningCampaign signers id)
  | cancelled {signers id} {c : MiningCampaign} : s.mining.miningCampaign id = some c → c.status = .active →
      t.mining.miningCampaign = update s.mining.miningCampaign c.campaignId (some { c with status := .cancelled }) →
      t.mining.miningCampaignCounter = s.mining.miningCampaignCounter →
      t.mining.miningParticipation = s.mining.miningParticipation → t.mining.miningClaimed = s.mining.miningClaimed →
      Bank.outflow t.bank.log w.contract =
        Bank.outflow s.bank.log w.contract + max (subOrZero c.incentivePool c.distributed) 0 →
      MiningEffect w s t (.cancelMiningCampaign signers id)

section

variable {ctx : Context}

theorem yields_createMiningCampaign (signers : List Address) (token : Address) (pool : Int) (duration : Nat)
    (campaignType : MiningCampaignType) (s : MiningStore) :
    Yields (createMiningCampaign signers token pool duration campaignType) ctx s fun _ t =>
      MiningEffect ctx.toWorld s t (.createMiningCampaign signers token pool duration campaignType) := by
  simp only [createMiningCampaign, nextCampaignId, saveCampaign, yields_parts, yields_steps, yields_requireAllowedToken,
    yields_collect, yields_i128, yields_u64]
  refine (yields_requireAdminApproval signers).mono ?_
  rintro _ _ rfl hpool _ _ sponsor _ _ _ hfits hreceived _ _
  refine .created hpool ?_ rfl rfl rfl rfl rfl rfl rfl rfl rfl
  rw [← hreceived]
  exact hfits

theorem yields_recordParticipation (id : Nat) (p : Address) (x : Int) (s : MiningStore) :
    Yields (recordParticipation id p x) ctx s.mining fun _ g =>
      MiningEffect ctx.toWorld s { s with mining := g } (.recordParticipation id p x) := by
  simp only [recordParticipation, loadCampaign, setParticipation, saveCampaign, yields_steps, yields_requireAuth,
    yields_i128, yields_u32]
  rintro ⟨-, hp⟩ hx c hc hactive hend _ _ _ _
  exact .recorded _ hc hactive hend hx hp rfl rfl rfl rfl

theorem yields_autoEnd (c : MiningCampaign) (g : Mining) {id : Nat} (hc : g.miningCampaign id = some c)
    (hid : c.campaignId = id) :
    Yields (autoEnd c) ctx g fun c' g' =>
      (c'.status = .ended → c' = { c with status := .ended } ∧ c.Over ctx.now) ∧
        g' = { g with miningCampaign := update g.miningCampaign id (some c') } := by
  simp only [autoEnd, saveCampaign, yields_steps]
  split
  case isTrue hover =>
    simp only [yields_steps]
    exact ⟨fun _ => ⟨trivial, .inr hover⟩, by rw [hid]⟩
  case isFalse =>
    rw [yields_pure]
    refine ⟨fun hended => ⟨?_, .inl hended⟩, ?_⟩
    · rw [← hended]
    · rw [← hc, update_eq_self]

theorem update_entry_self {α β : Type} [DecidableEq α] {γ : Type} [DecidableEq β] (f : α → β → γ) (a : α) (b : β) :
    update f a (update (f a) b (f a b)) = f := by
  rw [update_eq_self, update_eq_self]

theorem yields_claimMiningReward (id : Nat) (p : Address) (s : MiningStore) (hkeyed : s.mining.Keyed) :
    Yields (claimMiningReward id p) ctx s fun _ t => MiningEffect ctx.toWorld s t (.claimMiningReward id p) := by
  simp only [claimMiningReward, loadCampaign, yields_parts, yields_steps, yields_requireAuth]
  intro _ c hc
  have hid := hkeyed id c hc
  refine (yields_autoEnd c _ hc hid).mono ?_
  rintro c' _ ⟨hended, rfl⟩
  simp only [yields_i128]
  intro hstatus hweight _ _
  obtain ⟨rfl, hover⟩ := hended hstatus
  -- a claim that pays nothing leaves the campaign ended, and everything else as it was
  have hnothing : s.mining.payout id c p = 0 →
      MiningEffect ctx.toWorld s { s with
        mining := { s.mining with
          miningCampaign := update s.mining.miningCampaign id (some { c with status := .ended }) } }
        (.claimMiningReward id p) := fun hzero => by
    refine .claimed hc hover hweight ?_ rfl rfl ?_ ?_ ?_
    · rw [hzero, add_zero]
    · rw [hzero, add_zero, update_entry_self]
    · rw [hzero, add_zero]
    · rw [hzero, add_zero]
  rw [yields_ite]
  constructor
  · intro hclaimable
    rw [yields_pure]
    exact hnothing (max_eq_right ((min_le_left _ _).trans hclaimable))
  · intro hclaimable
    rw [yields_ite]
    constructor
    · intro hpayout
      rw [yields_pure]
      exact hnothing (max_eq_right hpayout)
    · intro hpayout
      simp only [saveCampaign, setClaimed, yields_steps, yields_zoom, yields_pay, yields_i128]
      intro _ _ _ _
      have hpaid : s.mining.payout id c p = min (subOrZero ((s.mining.pot id c).share p) (s.mining.miningClaimed id p))
          (subOrZero c.incentivePool c.distributed) := max_eq_left (le_of_not_ge hpayout)
      refine .claimed hc hover hweight ?_ rfl rfl ?_ ?_ ?_
      · rw [hpaid]
        apply (congrArg (fun i => update (update s.mining.miningCampaign id _) i _) hid).trans
        rw [update_idem]
        rfl
      · rw [hpaid]
        rfl
      · rw [hpaid]
        exact Bank.sent_paid _ _ _ _ _
      · rw [hpaid]
        exact Bank.outflow_paid _ _ _ _ _

theorem yields_miningOp (op : MiningOp) (s : MiningStore) (hkeyed : s.mining.Keyed) :
    Yields op.run ctx s fun _ t => MiningEffect ctx.toWorld s t op := by
  cases op with
  | createMiningCampaign signers token pool duration campaignType =>
    simp only [MiningOp.run, discard, yields_steps]
    exact yields_createMiningCampaign signers token pool duration campaignType s
  | recordParticipation id p x =>
    simp only [MiningOp.run, yields_parts]
    exact yields_recordParticipation id p x s
  | claimMiningReward id p =>
    simp only [MiningOp.run, discard, yields_steps]
    exact yields_claimMiningReward id p s hkeyed
  | endMiningCampaign signers id =>
    simp only [MiningOp.run, endMiningCampaign, loadCampaign, saveCampaign, yields_parts, yields_steps]
    refine (yields_requireAdminApproval signers).mono ?_
    rintro _ _ rfl c hc hactive
    exact .ended hc hactive rfl rfl rfl rfl
  | cancelMiningCampaign signers id =>
    simp only [MiningOp.run, cancelMiningCampaign, loadCampaign, saveCampaign, yields_parts, yields_steps]
    refine (yields_requireAdminApproval signers).mono ?_
    rintro _ _ rfl c hc hactive
    rw [yields_ite]
    constructor
    · intro hpos
      simp only [yields_zoom, yields_pay]
      intro _ _
      refine .cancelled hc hactive rfl rfl rfl rfl ?_
      rw [max_eq_left hpos.le]
      exact Bank.outflow_paid _ _ _ _ _
    · intro hnone
      rw [yields_pure]
      refine .cancelled hc hactive rfl rfl rfl rfl ?_
      rw [max_eq_right (le_of_not_gt hnone), add_zero]
      rfl

end

/-! ## What is paid -/

/-- The campaign whose pool the call pays from. -/
def MiningOp.paysFrom : MiningOp → Option Nat
  | .claimMiningReward id _ => some id
  | .cancelMiningCampaign _ id => some id
  | _ => none

/-- What the calls paid from the pool of the campaign, to anybody. -/
def paidFrom (id : Nat) : MiningHistory → Int :=
  liquidityMining.tally fun s op t =>
    if op.paysFrom = some id then
      Bank.outflow t.bank.log s.world.contract - Bank.outflow s.store.bank.log s.world.contract
    else 0

/-- How often the participant has claimed. -/
def claimCount (id : Nat) (p : Address) : MiningHistory → Int :=
  liquidityMining.tally fun _ op _ => if op = .claimMiningReward id p then 1 else 0

/-- What the participant has received for its claims, in the campaign's token. -/
def receivedBy (id : Nat) (p : Address) : MiningHistory → Int :=
  liquidityMining.tally fun s op t =>
    match s.store.mining.miningCampaign id with
    | some c =>
      if op = .claimMiningReward id p then
        Bank.sent t.bank.log c.token s.world.contract p - Bank.sent s.store.bank.log c.token s.world.contract p
      else 0
    | none => 0

/-! ## The books -/

/-- The books of one campaign: its weights add up, and who has claimed has got its share. -/
structure CampaignBooks (h : MiningHistory) (g : Mining) (id : Nat) (c : MiningCampaign) : Prop where
  sound : (g.pot id c).Sound
  pool : FitsI128 c.incentivePool
  claims : Totals (g.miningClaimed id) c.distributed
  taken : ∀ p, claimCount id p h = 0 ∧ g.miningClaimed id p = 0 ∨
    0 < claimCount id p h ∧ c.status = .ended ∧ g.miningClaimed id p = (g.pot id c).share p
  received : ∀ p, receivedBy id p h = g.miningClaimed id p
  paid : paidFrom id h = c.distributed + if c.status = .cancelled then c.incentivePool else 0

/-- No campaign has this id yet. -/
structure Blank (h : MiningHistory) (g : Mining) (id : Nat) : Prop where
  weight : g.miningParticipation id = fun _ => 0
  claimed : g.miningClaimed id = fun _ => 0
  count : ∀ p, claimCount id p h = 0
  received : ∀ p, receivedBy id p h = 0
  paid : paidFrom id h = 0

structure MiningBooks (h : MiningHistory) (s : Situated World MiningStore) : Prop where
  keyed : s.store.mining.Keyed
  numbered : ∀ id, s.store.mining.miningCampaignCounter < id → s.store.mining.miningCampaign id = none
  signed : ∀ id p, s.store.mining.miningParticipation id p ≠ 0 → p ≠ s.world.contract
  blank : ∀ id, s.store.mining.miningCampaign id = none → Blank h s.store.mining id
  books : ∀ id c, s.store.mining.miningCampaign id = some c → CampaignBooks h s.store.mining id c

section

variable {h : MiningHistory} {s : Situated World MiningStore} {signers : List Address} {op : MiningOp} {t : MiningStore}
  {id : Nat} {c : MiningCampaign}

theorem paidFrom_call (he : liquidityMining.exec s signers op = some t) (hop : op.paysFrom = some id) {x : Int}
    (hout : Bank.outflow t.bank.log s.world.contract = Bank.outflow s.store.bank.log s.world.contract + x) :
    paidFrom id ((s, .call signers op) :: h) = paidFrom id h + x := by
  rw [paidFrom, Component.tally_call he, if_pos hop, hout]
  omega

theorem receivedBy_claim {p : Address} (he : liquidityMining.exec s signers (.claimMiningReward id p) = some t)
    (hc : s.store.mining.miningCampaign id = some c) {x : Int}
    (hsent : Bank.sent t.bank.log c.token s.world.contract p =
      Bank.sent s.store.bank.log c.token s.world.contract p + x) :
    receivedBy id p ((s, .call signers (.claimMiningReward id p)) :: h) = receivedBy id p h + x := by
  rw [receivedBy, Component.tally_call he, hc]
  simp only [if_true, hsent]
  omega

theorem receivedBy_other {q : Address} (he : liquidityMining.exec s signers op = some t)
    (hop : op ≠ .claimMiningReward id q) : receivedBy id q ((s, .call signers op) :: h) = receivedBy id q h := by
  rw [receivedBy, Component.tally_call he]
  simp only [hop, if_false]
  split <;> exact add_zero _

theorem claimCount_claim {p : Address} (he : liquidityMining.exec s signers (.claimMiningReward id p) = some t) :
    claimCount id p ((s, .call signers (.claimMiningReward id p)) :: h) = claimCount id p h + 1 := by
  rw [claimCount, Component.tally_call he, if_pos rfl]

theorem claimCount_other {q : Address} (he : liquidityMining.exec s signers op = some t)
    (hop : op ≠ .claimMiningReward id q) : claimCount id q ((s, .call signers op) :: h) = claimCount id q h := by
  rw [claimCount, Component.tally_call he, if_neg hop, add_zero]

/-- What is known of the tallies of a campaign that the call does not pay from. -/
theorem tallies_untouched (he : liquidityMining.exec s signers op = some t) (hop : op.paysFrom ≠ some id) :
    paidFrom id ((s, .call signers op) :: h) = paidFrom id h ∧
      (∀ p, claimCount id p ((s, .call signers op) :: h) = claimCount id p h) ∧
      ∀ p, receivedBy id p ((s, .call signers op) :: h) = receivedBy id p h := by
  have hnot : ∀ p, op ≠ .claimMiningReward id p := by
    rintro p rfl
    exact hop rfl
  refine ⟨?_, fun p => claimCount_other he (hnot p), fun p => receivedBy_other he (hnot p)⟩
  rw [paidFrom, Component.tally_call he, if_neg hop, add_zero]

theorem CampaignBooks.other (hb : CampaignBooks h s.store.mining id c)
    (he : liquidityMining.exec s signers op = some t) (hop : op.paysFrom ≠ some id)
    (hweight : t.mining.miningParticipation id = s.store.mining.miningParticipation id)
    (hclaimed : t.mining.miningClaimed id = s.store.mining.miningClaimed id) :
    CampaignBooks ((s, .call signers op) :: h) t.mining id c := by
  obtain ⟨hpaid, hcount, hreceived⟩ := tallies_untouched (h := h) he hop
  have hpot : t.mining.pot id c = s.store.mining.pot id c := by rw [Mining.pot, hweight]; rfl
  constructor
  · rw [hpot]
    exact hb.sound
  · exact hb.pool
  · rw [hclaimed]
    exact hb.claims
  · intro p
    rw [hcount, hclaimed, hpot]
    exact hb.taken p
  · intro p
    rw [hreceived, hclaimed]
    exact hb.received p
  · rw [hpaid]
    exact hb.paid

theorem Blank.other (hb : Blank h s.store.mining id)
    (he : liquidityMining.exec s signers op = some t) (hop : op.paysFrom ≠ some id)
    (hweight : t.mining.miningParticipation id = s.store.mining.miningParticipation id)
    (hclaimed : t.mining.miningClaimed id = s.store.mining.miningClaimed id) :
    Blank ((s, .call signers op) :: h) t.mining id := by
  obtain ⟨hpaid, hcount, hreceived⟩ := tallies_untouched (h := h) he hop
  refine ⟨hweight.trans hb.weight, hclaimed.trans hb.claimed, fun p => ?_, fun p => ?_, hpaid.trans hb.paid⟩
  · rw [hcount]
    exact hb.count p
  · rw [hreceived]
    exact hb.received p

/-- Nobody has claimed from a campaign that has not ended. -/
theorem CampaignBooks.unclaimed {g : Mining} (hb : CampaignBooks h g id c) (hstatus : c.status ≠ .ended) :
    (∀ p, claimCount id p h = 0 ∧ g.miningClaimed id p = 0) ∧ c.distributed = 0 := by
  have hnone : ∀ p, claimCount id p h = 0 ∧ g.miningClaimed id p = 0 := fun p =>
    (hb.taken p).resolve_right fun hended => hstatus hended.2.1
  refine ⟨hnone, ?_⟩
  rw [hb.claims.sum]
  exact finsum_eq_zero_of_forall_eq_zero fun p => (hnone p).2

theorem CampaignBooks.claimed_le {g : Mining} (hb : CampaignBooks h g id c) (p : Address) :
    0 ≤ g.miningClaimed id p ∧ g.miningClaimed id p ≤ (g.pot id c).share p := by
  have hshare := hb.sound.share_nonneg p
  rcases hb.taken p with ⟨-, hzero⟩ | ⟨-, -, hall⟩
  · omega
  · omega

theorem subOrZero_of_le {x y : Int} (hy : 0 ≤ y) (hle : y ≤ x) (hx : x ≤ i128Max) : subOrZero x y = x - y := by
  have hmin : i128Min ≤ 0 := by decide
  exact if_pos ⟨by omega, by omega⟩

/-- What is left to a participant of its share, and what is left of the pool. -/
theorem CampaignBooks.open_eq {g : Mining} (hb : CampaignBooks h g id c) (p : Address) :
    subOrZero ((g.pot id c).share p) (g.miningClaimed id p) = (g.pot id c).share p - g.miningClaimed id p ∧
      (g.pot id c).share p - g.miningClaimed id p ≤ subOrZero c.incentivePool c.distributed := by
  obtain ⟨hclaimed, hle⟩ := hb.claimed_le p
  have hpool : c.incentivePool ≤ i128Max := hb.pool.2
  have hshare : (g.pot id c).share p ≤ c.incentivePool := hb.sound.share_le p
  have hdistributed := hb.claims.nonneg fun q => (hb.claimed_le q).1
  have hcap : c.distributed + ((g.pot id c).share p - g.miningClaimed id p) ≤ c.incentivePool :=
    hb.sound.taken_add_le hb.claims (fun q => (hb.claimed_le q).2) p
  refine ⟨subOrZero_of_le hclaimed hle (by omega), ?_⟩
  rw [subOrZero_of_le hdistributed (by omega) hpool]
  omega

/-- A claim pays what the participant has not had of its share: the pool holds it. -/
theorem CampaignBooks.payout_eq {g : Mining} (hb : CampaignBooks h g id c) (p : Address) :
    g.payout id c p = (g.pot id c).share p - g.miningClaimed id p := by
  obtain ⟨hopen, hremaining⟩ := hb.open_eq p
  have hle := (hb.claimed_le p).2
  rw [Mining.payout, hopen]
  omega

/-- A call that writes the campaign `k`. -/
theorem MiningBooks.written (hb : MiningBooks h s) (he : liquidityMining.exec s signers op = some t) {k : Nat}
    {c' : MiningCampaign} (hcampaign : t.mining.miningCampaign = update s.store.mining.miningCampaign k (some c'))
    (hid : c'.campaignId = k) (hcounter : s.store.mining.miningCampaignCounter ≤ t.mining.miningCampaignCounter)
    (hk : k ≤ t.mining.miningCampaignCounter)
    (hothers : ∀ id, id ≠ k → op.paysFrom ≠ some id ∧
      t.mining.miningParticipation id = s.store.mining.miningParticipation id ∧
      t.mining.miningClaimed id = s.store.mining.miningClaimed id)
    (hsigned : ∀ id p, t.mining.miningParticipation id p ≠ 0 → p ≠ s.world.contract)
    (hnew : CampaignBooks ((s, .call signers op) :: h) t.mining k c') :
    MiningBooks ((s, .call signers op) :: h) ⟨s.world, t⟩ := by
  constructor
  · intro id c hc
    rw [hcampaign, update_apply] at hc
    split at hc
    · cases hc
      rw [hid]
      symm
      assumption
    · exact hb.keyed id c hc
  · intro id (hlt : t.mining.miningCampaignCounter < id)
    rw [hcampaign, update_of_ne (by omega)]
    exact hb.numbered id (by omega)
  · exact hsigned
  · intro id hnone
    rw [hcampaign, update_apply] at hnone
    split at hnone
    · cases hnone
    case isFalse hne =>
      obtain ⟨hop, hweight, hclaimed⟩ := hothers id hne
      exact (hb.blank id hnone).other he hop hweight hclaimed
  · intro id c hc
    rw [hcampaign, update_apply] at hc
    split at hc
    case isTrue heq =>
      cases hc
      rw [heq]
      exact hnew
    case isFalse hne =>
      obtain ⟨hop, hweight, hclaimed⟩ := hothers id hne
      exact (hb.books id c hc).other he hop hweight hclaimed

theorem MiningBooks.known (hb : MiningBooks h s) (hc : s.store.mining.miningCampaign id = some c) :
    id ≤ s.store.mining.miningCampaignCounter := by
  by_contra hlt
  rw [hb.numbered id (by omega)] at hc
  cases hc

theorem miningEffect_of (hb : MiningBooks h s) (he : liquidityMining.exec s signers op = some t) :
    MiningEffect s.world s.store t op :=
  Component.exec_yields (Q := fun t => MiningEffect s.world s.store t op) (yields_miningOp op s.store hb.keyed) he

theorem effectiveWeight_pos {x : Int} (hx : 0 < x) : 0 < effectiveWeight c x := by
  rw [effectiveWeight]
  split
  · decide
  · exact hx

theorem books_miningCall (hb : MiningBooks h s) (he : liquidityMining.exec s signers op = some t) :
    MiningBooks ((s, .call signers op) :: h) ⟨s.world, t⟩ := by
  cases miningEffect_of hb he with
  | @created signers' token pool duration campaignType c hpos hfits hpool hid hdistributed htotal hactive hcampaign
      hcounter hweight hclaimed =>
    have hnone := hb.blank _ (hb.numbered (s.store.mining.miningCampaignCounter + 1) (by omega))
    obtain ⟨hpaid, hcount, hreceived⟩ :=
      @tallies_untouched h s _ _ _ (s.store.mining.miningCampaignCounter + 1) he (by simp [MiningOp.paysFrom])
    refine hb.written he hcampaign hid (by omega) hcounter.ge (fun id _ => ?_) ?_ ?_
    · exact ⟨by simp [MiningOp.paysFrom], by rw [hweight], by rw [hclaimed]⟩
    · rw [hweight]
      exact hb.signed
    · constructor
      · rw [Mining.pot, hweight, hnone.weight, htotal, hpool]
        exact ⟨.zero, fun _ => le_rfl, hpos.le⟩
      · rw [hpool]
        exact hfits
      · rw [hclaimed, hnone.claimed, hdistributed]
        exact .zero
      · intro p
        rw [hcount, hclaimed, hnone.claimed]
        exact .inl ⟨hnone.count p, rfl⟩
      · intro p
        rw [hreceived, hclaimed, hnone.claimed]
        exact hnone.received p
      · rw [hpaid, hnone.paid, hdistributed, hactive]
        rfl
  | @recorded id p x c count hc hactive hend hx hp hcampaign hcounter hweight hclaimed =>
    have hid := hb.keyed id c hc
    have hbooks := hb.books id c hc
    have hcampaign := hcampaign.trans (congrArg (update s.store.mining.miningCampaign · _) hid)
    obtain ⟨hpaid, hcount, hreceived⟩ := @tallies_untouched h s _ _ _ id he (by simp [MiningOp.paysFrom])
    obtain ⟨hnone, -⟩ := hbooks.unclaimed (by simp [hactive])
    have heffective : 0 < effectiveWeight c x := effectiveWeight_pos hx
    have hself : t.mining.miningParticipation id = update (s.store.mining.miningParticipation id) p
        (s.store.mining.miningParticipation id p + effectiveWeight c x) := by
      rw [hweight, update_self]
    refine hb.written he hcampaign hid (by omega) (hcounter ▸ hb.known hc) (fun other hne => ?_) ?_ ?_
    · exact ⟨by simp [MiningOp.paysFrom], by rw [hweight, update_of_ne hne], by rw [hclaimed]⟩
    · intro other q hq
      rw [hweight] at hq
      by_cases hne : other = id
      · rw [hne, update_self] at hq
        by_cases hqp : q = p
        · rw [hqp]
          exact hp
        · rw [update_of_ne hqp] at hq
          exact hb.signed id q hq
      · rw [update_of_ne hne] at hq
        exact hb.signed other q hq
    · constructor
      · refine ⟨?_, fun q => ?_, hbooks.sound.whole⟩
        · refine (hbooks.sound.total.update p _).congr hself ?_
          simp only [Mining.pot]
          omega
        · simp only [Mining.pot, hself, update_apply]
          have hold : 0 ≤ s.store.mining.miningParticipation id p := hbooks.sound.weight p
          split
          · omega
          · exact hbooks.sound.weight q
      · exact hbooks.pool
      · rw [hclaimed]
        exact hbooks.claims
      · intro q
        rw [hcount, hclaimed]
        exact .inl (hnone q)
      · intro q
        rw [hreceived, hclaimed]
        exact hbooks.received q
      · rw [hpaid]
        exact hbooks.paid
  | @claimed id p c hc hover hparticipant hcampaign hcounter hweight hclaimed hsent hout =>
    have hid := hb.keyed id c hc
    have hbooks := hb.books id c hc
    have hpayout := hbooks.payout_eq p
    have hself : t.mining.miningClaimed id =
        update (s.store.mining.miningClaimed id) p ((s.store.mining.pot id c).share p) := by
      rw [hclaimed, update_self, hpayout, add_sub_cancel]
    have hpot : t.mining.pot id { c with
        status := .ended, distributed := c.distributed + s.store.mining.payout id c p } = s.store.mining.pot id c := by
      simp only [Mining.pot, hweight]
    refine hb.written he hcampaign hid (by omega) (hcounter ▸ hb.known hc) (fun other hne => ?_) ?_ ?_
    · exact ⟨by simpa [MiningOp.paysFrom] using hne.symm, by rw [hweight], by rw [hclaimed, update_of_ne hne]⟩
    · rw [hweight]
      exact hb.signed
    · constructor
      · rw [hpot]
        exact hbooks.sound
      · exact hbooks.pool
      · refine (hbooks.claims.update p _).congr hself ?_
        dsimp only
        omega
      · intro q
        rw [hpot, hself]
        by_cases hqp : q = p
        · rw [hqp, update_self, claimCount_claim he]
          refine .inr ⟨?_, rfl, rfl⟩
          rcases hbooks.taken p with ⟨hzero, -⟩ | ⟨hpos, -, -⟩
          · omega
          · omega
        · rw [update_of_ne hqp, claimCount_other he fun heq => hqp (by cases heq; rfl)]
          exact (hbooks.taken q).imp_right fun hended => ⟨hended.1, rfl, hended.2.2⟩
      · intro q
        have hold := hbooks.received q
        rw [hself]
        by_cases hqp : q = p
        · rw [hqp] at hold ⊢
          rw [update_self, receivedBy_claim he hc hsent]
          omega
        · rw [update_of_ne hqp, receivedBy_other he fun heq => hqp (by cases heq; rfl)]
          exact hold
      · have hold := hbooks.paid
        have hopen : c.status ≠ .cancelled := by
          rcases hover with hended | ⟨hactive, -⟩
          · simp [hended]
          · simp [hactive]
        rw [if_neg hopen] at hold
        rw [paidFrom_call he rfl hout, if_neg (by simp)]
        dsimp only
        omega
  | @ended signers' id c hc hactive hcampaign hcounter hweight hclaimed =>
    have hid := hb.keyed id c hc
    have hbooks := hb.books id c hc
    have hcampaign := hcampaign.trans (congrArg (update s.store.mining.miningCampaign · _) hid)
    obtain ⟨hpaid, hcount, hreceived⟩ := @tallies_untouched h s _ _ _ id he (by simp [MiningOp.paysFrom])
    obtain ⟨hnone, -⟩ := hbooks.unclaimed (by simp [hactive])
    refine hb.written he hcampaign hid (by omega) (hcounter ▸ hb.known hc) (fun other hne => ?_) ?_ ?_
    · exact ⟨by simp [MiningOp.paysFrom], by rw [hweight], by rw [hclaimed]⟩
    · rw [hweight]
      exact hb.signed
    · constructor
      · rw [Mining.pot, hweight]
        exact hbooks.sound
      · exact hbooks.pool
      · rw [hclaimed]
        exact hbooks.claims
      · intro q
        rw [hcount, hclaimed]
        exact .inl (hnone q)
      · intro q
        rw [hreceived, hclaimed]
        exact hbooks.received q
      · have hold := hbooks.paid
        rw [if_neg (by simp [hactive])] at hold
        rw [hpaid]
        exact hold
  | @cancelled signers' id c hc hactive hcampaign hcounter hweight hclaimed hout =>
    have hid := hb.keyed id c hc
    have hbooks := hb.books id c hc
    have hcampaign := hcampaign.trans (congrArg (update s.store.mining.miningCampaign · _) hid)
    obtain ⟨hnone, hzero⟩ := hbooks.unclaimed (by simp [hactive])
    have hnotclaim : ∀ q, MiningOp.cancelMiningCampaign signers' id ≠ .claimMiningReward id q := by simp
    refine hb.written he hcampaign hid (by omega) (hcounter ▸ hb.known hc) (fun other hne => ?_) ?_ ?_
    · exact ⟨by simpa [MiningOp.paysFrom] using hne.symm, by rw [hweight], by rw [hclaimed]⟩
    · rw [hweight]
      exact hb.signed
    · constructor
      · rw [Mining.pot, hweight]
        exact hbooks.sound
      · exact hbooks.pool
      · rw [hclaimed]
        exact hbooks.claims
      · intro q
        rw [hclaimed, claimCount_other he (hnotclaim q)]
        exact .inl (hnone q)
      · intro q
        rw [hclaimed, receivedBy_other he (hnotclaim q)]
        exact hbooks.received q
      · have hold := hbooks.paid
        have hpool : 0 ≤ c.incentivePool := hbooks.sound.whole
        rw [if_neg (by simp [hactive])] at hold
        have hrefund : subOrZero c.incentivePool c.distributed = c.incentivePool := by
          rw [hzero, subOrZero, sub_zero, if_pos hbooks.pool]
        rw [paidFrom_call he rfl hout, hrefund, max_eq_left hpool, if_pos rfl]
        dsimp only
        omega

theorem MiningBooks.idle {e : Event World (List Address) MiningStore MiningOp} {s' : Situated World MiningStore}
    (hb : MiningBooks h s) (hnone : liquidityMining.done s e = none) (hmining : s'.store.mining = s.store.mining)
    (hcontract : s'.world.contract = s.world.contract) : MiningBooks ((s, e) :: h) s' := by
  have hpaid : ∀ id, paidFrom id ((s, e) :: h) = paidFrom id h := fun id => Component.tally_idle hnone _ _
  have hcount : ∀ id p, claimCount id p ((s, e) :: h) = claimCount id p h := fun id p => Component.tally_idle hnone _ _
  have hreceived : ∀ id p, receivedBy id p ((s, e) :: h) = receivedBy id p h := fun id p =>
    Component.tally_idle hnone _ _
  constructor
  · rw [hmining]
    exact hb.keyed
  · rw [hmining]
    exact hb.numbered
  · rw [hmining, hcontract]
    exact hb.signed
  · intro id hid
    rw [hmining] at hid ⊢
    obtain ⟨hweight, hclaimed, hcounts, hreceives, hpays⟩ := hb.blank id hid
    exact ⟨hweight, hclaimed, fun p => (hcount id p).trans (hcounts p), fun p => (hreceived id p).trans (hreceives p),
      (hpaid id).trans hpays⟩
  · intro id c hc
    rw [hmining] at hc ⊢
    obtain ⟨hsound, hpool, hclaims, htaken, hreceives, hpays⟩ := hb.books id c hc
    refine ⟨hsound, hpool, hclaims, fun p => ?_, fun p => (hreceived id p).trans (hreceives p), (hpaid id).trans hpays⟩
    rw [hcount]
    exact htaken p

theorem books_miningRun {world : World} {bank : Ledger}
    (hr : Run liquidityMining.Step (miningStart world bank) h s) : MiningBooks h s := by
  refine Component.inv (I := MiningBooks) ?_ (fun _ hb he => books_miningCall hb he) ?_ hr
  · refine ⟨fun _ _ hc => ?_, fun _ _ => rfl, fun _ _ hp => (hp rfl).elim, fun _ _ => ?_, fun _ _ hc => ?_⟩
    · cases hc
    · exact ⟨rfl, rfl, fun _ => rfl, fun _ => rfl, rfl⟩
    · cases hc
  · rintro h s e s' hb hnone (rfl | ⟨-, hcontract, hmining⟩)
    · exact hb.idle hnone rfl rfl
    · exact hb.idle hnone hmining hcontract

/-! ## Claims go through -/

theorem goes_autoEnd {ctx : Context} {g : Mining} (hover : c.Over ctx.now) :
    Goes (autoEnd c) ctx g fun c' g' => c' = { c with status := .ended } ∧
      g'.miningParticipation = g.miningParticipation ∧ g'.miningClaimed = g.miningClaimed := by
  simp only [autoEnd, goes_bind, goes_ask]
  split
  case isTrue =>
    simp [saveCampaign]
  case isFalse hnot =>
    rw [goes_pure, ← hover.resolve_right hnot]
    exact ⟨rfl, rfl, rfl⟩

/-- A participant whose share can be computed gets it, if the contract has the tokens. -/
theorem MiningBooks.claim_goes (hb : MiningBooks h s) (hc : s.store.mining.miningCampaign id = some c)
    (hover : c.Over s.world.now) {p : Address} (hp : s.store.mining.miningParticipation id p ≠ 0)
      (hsigned : p ∈ signers)
    (hfits : FitsI128 (s.store.mining.miningParticipation id p * c.incentivePool))
    (hfunds : (s.store.mining.pot id c).share p - s.store.mining.miningClaimed id p ≤
      s.store.bank.balance c.token s.world.contract) :
    ∃ t, liquidityMining.exec s signers (.claimMiningReward id p) = some t := by
  have hbooks := hb.books id c hc
  have htotal : c.totalParticipation ≠ 0 := (hbooks.sound.total_pos (a := p) hp).ne'
  obtain ⟨hopen, hremaining⟩ := hbooks.open_eq p
  obtain ⟨hclaimed, hle⟩ := hbooks.claimed_le p
  have hpool : c.incentivePool ≤ i128Max := hbooks.pool.2
  have hmin : i128Min ≤ 0 := by decide
  have hshare : (s.store.mining.pot id c).share p ≤ c.incentivePool := hbooks.sound.share_le p
  have hdistributed := hbooks.claims.nonneg fun q => (hbooks.claimed_le q).1
  have hcap : c.distributed + ((s.store.mining.pot id c).share p - s.store.mining.miningClaimed id p) ≤
      c.incentivePool :=
    hbooks.sound.taken_add_le hbooks.claims (fun q => (hbooks.claimed_le q).2) p
  suffices hgoes : Goes (MiningOp.claimMiningReward id p).run { s.world with signers } s.store fun _ _ => True by
    obtain ⟨_, t, hrun, -⟩ := hgoes
    exact ⟨t, Component.exec_eq_some_iff.2 ⟨_, _, hrun, rfl⟩⟩
  simp only [MiningOp.run, discard, claimMiningReward, loadCampaign, yields_parts, goes_bind, goes_zoom,
    goes_requireAuth, goes_look, goes_orFail, goes_pure]
  refine ⟨⟨hsigned, hb.signed id p hp⟩, c, hc, (goes_autoEnd (c := c) hover).mono ?_⟩
  rintro _ g ⟨rfl, hweights, hclaims⟩
  have hweight : g.miningParticipation id p = s.store.mining.miningParticipation id p :=
    congrFun (congrFun hweights id) p
  have hclaim : g.miningClaimed id p = s.store.mining.miningClaimed id p := congrFun (congrFun hclaims id) p
  have hstore : (Host.Part.set g (Host.Part.set (Host.Part.get s.store : Mining) s.store) : MiningStore) =
      { s.store with mining := g } := rfl
  have hentitled : (s.store.mining.miningParticipation id p * c.incentivePool).tdiv c.totalParticipation =
      (s.store.mining.pot id c).share p := rfl
  simp only [goes_require, goes_i128, hstore, hweight, hclaim, hentitled, hopen, min_eq_left hremaining]
  refine ⟨trivial, hp, htotal, hfits, ?_⟩
  rw [goes_ite, goes_ite]
  refine ⟨fun _ => (goes_pure _ _ _ _).2 trivial, fun hsome => ⟨fun hnone => (hsome hnone).elim, fun _ => ?_⟩⟩
  simp only [saveCampaign, setClaimed, goes_bind, goes_zoom, goes_pay, goes_i128, goes_alter, goes_pure]
  exact ⟨⟨by omega, hfunds⟩, ⟨by omega, by omega⟩, ⟨by omega, by omega⟩, trivial⟩

end

/-! ## Fair rewards -/

/-- The weights add up, no more than the pool is paid, whoever has claimed has its
share and who has not can have it, and in a flat campaign the shares are equal. -/
structure MiningFair (h : MiningHistory) (s : Situated World MiningStore) : Prop where
  total : ∀ id c, s.store.mining.miningCampaign id = some c →
    Totals (s.store.mining.miningParticipation id) c.totalParticipation
  bounded : ∀ id c, s.store.mining.miningCampaign id = some c → paidFrom id h ≤ c.incentivePool
  received : ∀ id c, s.store.mining.miningCampaign id = some c → ∀ p,
    receivedBy id p h = if claimCount id p h = 0 then 0 else (s.store.mining.pot id c).share p
  pays : ∀ id c, s.store.mining.miningCampaign id = some c → c.Over s.world.now → ∀ p,
    s.store.mining.miningParticipation id p ≠ 0 → ∀ signers : List Address, p ∈ signers →
    (s.store.mining.pot id c).share p - receivedBy id p h ≤ s.store.bank.balance c.token s.world.contract →
    ∃ t, liquidityMining.exec s signers (.claimMiningReward id p) = some t ∧
      receivedBy id p ((s, .call signers (.claimMiningReward id p)) :: h) = (s.store.mining.pot id c).share p
  flat : ∀ id c, s.store.mining.miningCampaign id = some c → c.campaignType = .flatPerVoucher → ∀ p q,
    s.store.mining.miningParticipation id p ≠ 0 → s.store.mining.miningParticipation id q ≠ 0 →
    (s.store.mining.pot id c).share p = (s.store.mining.pot id c).share q

/-- In a flat campaign a participant is recorded once, and no weight is so large that
a share of the pool cannot be computed. -/
def RecordsOnce (s : Situated World MiningStore) : MiningOp → Prop
  | .recordParticipation id p x => ∀ c ∈ s.store.mining.miningCampaign id,
      FitsI128 ((s.store.mining.miningParticipation id p + effectiveWeight c x) * c.incentivePool) ∧
        (c.campaignType = .flatPerVoucher → s.store.mining.miningParticipation id p = 0)
  | _ => True

instance (s : Situated World MiningStore) (op : MiningOp) : Decidable (RecordsOnce s op) := by
  unfold RecordsOnce
  split <;> infer_instance

/-- The weights of a campaign that `RecordsOnce` allows. -/
def EvenWeights (g : Mining) : Prop :=
  ∀ id c, g.miningCampaign id = some c → ∀ p, FitsI128 (g.miningParticipation id p * c.incentivePool) ∧
    (c.campaignType = .flatPerVoucher → g.miningParticipation id p = 0 ∨ g.miningParticipation id p = 1)

section

variable {h : MiningHistory} {s : Situated World MiningStore} {world : World} {bank : Ledger}

/-- Writing a campaign and no weight keeps the weights even, if they suit the campaign. -/
theorem EvenWeights.written {g g' : Mining} (he : EvenWeights g) {k : Nat} {c' : MiningCampaign}
    (hcampaign : g'.miningCampaign = update g.miningCampaign k (some c'))
    (hweight : ∀ id, id ≠ k → g'.miningParticipation id = g.miningParticipation id)
    (hnew : ∀ p, FitsI128 (g'.miningParticipation k p * c'.incentivePool) ∧
      (c'.campaignType = .flatPerVoucher → g'.miningParticipation k p = 0 ∨ g'.miningParticipation k p = 1)) :
    EvenWeights g' := by
  intro id c hc p
  rw [hcampaign, update_apply] at hc
  split at hc
  case isTrue heq =>
    cases hc
    rw [heq]
    exact hnew p
  case isFalse hne =>
    rw [hweight id hne]
    exact he id c hc p

theorem even_miningCall {signers : List Address} {op : MiningOp} {t : MiningStore} (hb : MiningBooks h s)
    (heven : EvenWeights s.store.mining) (hok : RecordsOnce s op) (he : liquidityMining.exec s signers op = some t) :
    EvenWeights t.mining := by
  cases miningEffect_of hb he with
  | created hpos hfits hpool hid hdistributed htotal hactive hcampaign hcounter hweight hclaimed =>
    have hnone := hb.blank _ (hb.numbered (s.store.mining.miningCampaignCounter + 1) (by omega))
    refine heven.written hcampaign (fun id _ => by rw [hweight]) fun p => ?_
    rw [hweight, hnone.weight, zero_mul]
    exact ⟨by decide, fun _ => .inl rfl⟩
  | @recorded id p x c count hc hactive hend hx hp hcampaign hcounter hweight hclaimed =>
    obtain ⟨hfits, hfirst⟩ := hok c hc
    have hcampaign := hcampaign.trans (congrArg (update s.store.mining.miningCampaign · _) (hb.keyed id c hc))
    refine heven.written hcampaign (fun other hne => by rw [hweight, update_of_ne hne]) fun q => ?_
    rw [hweight, update_self, update_apply]
    split
    · refine ⟨hfits, fun hflat => .inr ?_⟩
      rw [hfirst hflat, effectiveWeight, if_pos hflat, zero_add]
    · exact heven id c hc q
  | @claimed id p c hc hover hparticipant hcampaign hcounter hweight =>
    refine heven.written hcampaign (fun other _ => by rw [hweight]) fun q => ?_
    rw [hweight]
    exact heven id c hc q
  | ended hc _ hcampaign _ hweight | cancelled hc _ hcampaign _ hweight =>
    have hcampaign := hcampaign.trans (congrArg (update s.store.mining.miningCampaign · _) (hb.keyed _ _ hc))
    refine heven.written hcampaign (fun other _ => by rw [hweight]) fun q => ?_
    rw [hweight]
    exact heven _ _ hc q

theorem even_miningRun (hr : Run liquidityMining.Step (miningStart world bank) h s)
    (hok : Along (liquidityMining.WhenDone RecordsOnce) h) : EvenWeights s.store.mining := by
  refine Component.inv_throughout (I := fun _ s => EvenWeights s.store.mining) ?_ ?_ ?_ hr hok.throughout
  · intro id c hc
    cases hc
  · exact fun hr heven hok he => even_miningCall (books_miningRun hr) heven hok he
  · rintro h s e s' heven - (rfl | ⟨-, -, hmining⟩)
    · exact heven
    · rw [hmining]
      exact heven

/-- A campaign is fair, if its participants are recorded once in a flat campaign and
with weights that can be multiplied by the pool. -/
theorem liquidity_mining_fair (hr : Run liquidityMining.Step (miningStart world bank) h s)
    (hok : Along (liquidityMining.WhenDone RecordsOnce) h) : MiningFair h s := by
  have hb := books_miningRun hr
  have heven := even_miningRun hr hok
  constructor
  · intro id c hc
    exact (hb.books id c hc).sound.total
  · intro id c hc
    have hbooks := hb.books id c hc
    have hwhole : 0 ≤ c.incentivePool := hbooks.sound.whole
    have hle := (hbooks.claimed_le 0).2
    have hcap : c.distributed + _ ≤ c.incentivePool :=
      hbooks.sound.taken_add_le hbooks.claims (fun q => (hbooks.claimed_le q).2) 0
    rw [hbooks.paid]
    split
    case isTrue hcancelled =>
      obtain ⟨-, hzero⟩ := hbooks.unclaimed (by simp [hcancelled])
      omega
    case isFalse => omega
  · intro id c hc p
    have hbooks := hb.books id c hc
    rw [hbooks.received p]
    rcases hbooks.taken p with ⟨hzero, hnone⟩ | ⟨hpos, -, hall⟩
    · rw [if_pos hzero, hnone]
    · rw [if_neg hpos.ne', hall]
  · intro id c hc hover p hp signers hsigned hfunds
    have hbooks := hb.books id c hc
    rw [hbooks.received p] at hfunds
    obtain ⟨t, he⟩ := hb.claim_goes hc hover hp hsigned (heven id c hc p).1 hfunds
    refine ⟨t, he, ?_⟩
    cases miningEffect_of hb he with
    | claimed hc' hover hparticipant hcampaign hcounter hweight hclaimed hsent =>
      rw [hc] at hc'
      cases hc'
      rw [receivedBy_claim he hc hsent, hbooks.received p, hbooks.payout_eq p]
      omega
  · intro id c hc hflat p q hp hq
    have hone := (heven id c hc p).2 hflat
    have hone' := (heven id c hc q).2 hflat
    have hsame : s.store.mining.miningParticipation id p = s.store.mining.miningParticipation id q := by omega
    simp only [Pot.share, Mining.pot, hsame]

end

/-- A campaign of the type for 90 tokens of account 1; the participants are recorded,
and after its end account 2 claims. -/
def minedCampaign (campaignType : MiningCampaignType) (participants : List (Address × Int)) :
    List (Component.Act (List Address) MiningOp) :=
  .call [1] (.createMiningCampaign [1] 100 90 1000 campaignType) ::
    participants.map (fun p => .call [p.1] (.recordParticipation 1 p.1 p.2)) ++
    [.wait 1000, .call [2] (.claimMiningReward 1 2)]

def minedHistory (participants : List (Address × Int)) : MiningHistory :=
  liquidityMining.record World.later (miningStart sampleWorld sampleBank) []
    (minedCampaign .flatPerVoucher participants)

def afterMining (participants : List (Address × Int)) : Situated World MiningStore :=
  liquidityMining.perform World.later (miningStart sampleWorld sampleBank) (minedCampaign .flatPerVoucher participants)

theorem run_mined (participants : List (Address × Int)) :
    Run liquidityMining.Step (miningStart sampleWorld sampleBank) (minedHistory participants)
      (afterMining participants) :=
  Component.run_perform (C := liquidityMining) World.later (fun _ _ _ => ⟨Nat.le_add_right _ _, rfl, rfl⟩) .nil _

theorem liquidity_mining_two_vouchers : MiningFair (minedHistory [(2, 5), (3, 7)]) (afterMining [(2, 5), (3, 7)]) := by
  refine liquidity_mining_fair (run_mined [(2, 5), (3, 7)]) ?_
  unfold Along
  decide +kernel

/-- Account 2 is recorded twice in a flat campaign, and gets twice as much as account 3. -/
theorem liquidity_mining_unequal :
    ¬ ∀ world bank h s, Run liquidityMining.Step (miningStart world bank) h s → MiningFair h s := by
  intro hclaim
  have hfair := hclaim _ _ _ _ (run_mined [(2, 5), (2, 5), (3, 7)])
  have hstored : ((afterMining [(2, 5), (2, 5), (3, 7)]).store.mining.miningCampaign 1).isSome := by decide +kernel
  obtain ⟨c, hc⟩ := Option.isSome_iff_exists.1 hstored
  have hequal := hfair.flat 1 c hc
  have hshares : ∀ c ∈ (afterMining [(2, 5), (2, 5), (3, 7)]).store.mining.miningCampaign 1,
      c.campaignType = .flatPerVoucher ∧
        ((afterMining [(2, 5), (2, 5), (3, 7)]).store.mining.pot 1 c).share 2 = 60 ∧
        ((afterMining [(2, 5), (2, 5), (3, 7)]).store.mining.pot 1 c).share 3 = 30 := by
    decide +kernel
  obtain ⟨hflat, htwo, hthree⟩ := hshares c hc
  have hsame := hequal hflat 2 3 (by decide +kernel) (by decide +kernel)
  rw [htwo, hthree] at hsame
  exact absurd hsame (by decide)

end QuorumCredit
