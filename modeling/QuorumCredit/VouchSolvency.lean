import QuorumCredit.VouchSyndication
import QuorumCredit.Host.ProRata
/-!
# The solvency of a vouch syndicate

What a pool pays out against what it took in. The shares are those of the recorded
contributions, and dissolving pays each listed member the recorded contribution: a
member listed twice has one record, so what the list adds up to may be more than
what came in.
-/

open Host Function

namespace QuorumCredit

/-! ## The loops -/

/-- `bps_of` where nothing overflows. -/
def shareBpsOf (amount total : Int) : Nat :=
  if total ≤ 0 then 0 else ((amount * 10000).tdiv total % (u32Max + 1)).toNat

theorem shareBpsOf_mul_le {amount total : Int} (hamount : 0 ≤ amount) (htotal : 0 < total) :
    (shareBpsOf amount total : Int) * total ≤ amount * 10000 := by
  have hscaled : 0 ≤ amount * 10000 := by omega
  have hquotient : 0 ≤ (amount * 10000).tdiv total := Int.tdiv_nonneg hscaled htotal.le
  have hshare : (shareBpsOf amount total : Int) ≤ (amount * 10000).tdiv total := by
    rw [shareBpsOf, if_neg (not_le.2 htotal)]
    unfold u32Max
    omega
  calc (shareBpsOf amount total : Int) * total
      ≤ (amount * 10000).tdiv total * total := mul_le_mul_of_nonneg_right hshare htotal.le
    _ ≤ amount * 10000 := tdiv_mul_le hscaled htotal

def SyndicateContribution.record (c : SyndicateContribution) (total : Int) : SyndicateMember :=
  { member := c.member, contribution := c.amount, shareBps := shareBpsOf c.amount total, rewardsReceived := 0 }

/-- The record of the address after the contributions: that of its last one. -/
def recordedOf (total : Int) (contributions : List SyndicateContribution) (a : Address) (m : Option SyndicateMember) :
    Option SyndicateMember :=
  contributions.foldl (fun m c => if c.member = a then some (c.record total) else m) m

namespace VouchSyndicates

variable (g : VouchSyndicates)

def contributionOf (p : Nat) (a : Address) : Int := ((g.syndicateMember p a).map (·.contribution)).getD 0

def shareOf (p : Nat) (a : Address) : Int := ((g.syndicateMember p a).map fun m => (m.shareBps : Int)).getD 0

/-- The pool's part of the rewards for the address. -/
def rewardOf (p : Nat) (rewards : Int) (a : Address) : Int := max 0 ((rewards * g.shareOf p a).tdiv 10000)

/-- The records of the pool say the same of everybody's contribution and share. -/
structure SameTerms (p : Nat) (g' : VouchSyndicates) : Prop where
  contribution : ∀ a, g'.contributionOf p a = g.contributionOf p a
  share : ∀ a, g'.shareOf p a = g.shareOf p a
  isSome : ∀ a, (g'.syndicateMember p a).isSome = (g.syndicateMember p a).isSome

variable {g} {p : Nat}

theorem SameTerms.of_eq {g' : VouchSyndicates} (h : g'.syndicateMember p = g.syndicateMember p) : g.SameTerms p g' :=
  ⟨fun a => by rw [contributionOf, h, contributionOf], fun a => by rw [shareOf, h, shareOf], fun a => by rw [h]⟩

theorem SameTerms.trans {g₁ g₂ : VouchSyndicates} (h : g.SameTerms p g₁) (h' : g₁.SameTerms p g₂) : g.SameTerms p g₂ :=
  ⟨fun a => (h'.contribution a).trans (h.contribution a), fun a => (h'.share a).trans (h.share a),
    fun a => (h'.isSome a).trans (h.isSome a)⟩

theorem SameTerms.rewardOf {g' : VouchSyndicates} (h : g.SameTerms p g') (rewards : Int) :
    g'.rewardOf p rewards = g.rewardOf p rewards := by
  funext a
  rw [VouchSyndicates.rewardOf, VouchSyndicates.rewardOf, h.share]

theorem setMember_syndicateMember (q : Nat) (a b : Address) (m : Option SyndicateMember) :
    (g.setMember p a m).syndicateMember q b = if q = p ∧ b = a then m else g.syndicateMember q b := by
  unfold setMember
  by_cases hq : q = p
  · by_cases hb : b = a
    · simp [hq, hb]
    · simp [hq, hb]
  · simp [hq]

theorem contributionOf_some {a : Address} {m : SyndicateMember} (hm : g.syndicateMember p a = some m) :
    g.contributionOf p a = m.contribution := by
  simp [contributionOf, hm]

theorem shareOf_some {a : Address} {m : SyndicateMember} (hm : g.syndicateMember p a = some m) :
    g.shareOf p a = m.shareBps := by
  simp [shareOf, hm]

/-- Rewards received are no term of the record. -/
theorem sameTerms_setMember {a : Address} {m : SyndicateMember} (hm : g.syndicateMember p a = some m)
    (rewardsReceived : Int) (q : Nat) : g.SameTerms q (g.setMember p a (some { m with rewardsReceived })) := by
  refine ⟨fun b => ?_, fun b => ?_, fun b => ?_⟩
  · unfold contributionOf
    rw [setMember_syndicateMember]
    split
    case isTrue h => simp [h, hm]
    case isFalse => rfl
  · unfold shareOf
    rw [setMember_syndicateMember]
    split
    case isTrue h => simp [h, hm]
    case isFalse => rfl
  · rw [setMember_syndicateMember]
    split
    case isTrue h => simp [h, hm]
    case isFalse => rfl

end VouchSyndicates

section

variable {ctx : Context}

theorem yields_getSyndicatePool (p : Nat) (g : VouchSyndicates) (Q : SyndicatePool → VouchSyndicates → Prop) :
    Yields (getSyndicatePool p) ctx g Q ↔ ∀ pool, g.syndicatePool p = some pool → Q pool g := by
  simp [getSyndicatePool]

theorem yields_getSyndicateMember (p : Nat) (a : Address) (g : VouchSyndicates)
    (Q : SyndicateMember → VouchSyndicates → Prop) :
    Yields (getSyndicateMember p a) ctx g Q ↔ ∀ m, g.syndicateMember p a = some m → Q m g := by
  simp [getSyndicateMember]

theorem yields_bpsOf {σ : Type} (amount total : Int) (s : σ) :
    Yields (bpsOf amount total) ctx s fun share s' => share = shareBpsOf amount total ∧ s' = s := by
  unfold bpsOf
  split
  case isTrue h => simp [shareBpsOf, h]
  case isFalse h => simp [shareBpsOf, h]

theorem yields_takeContributions (token : Address) (contributions : List SyndicateContribution) (total : Int)
    (b : Ledger) :
    Yields (takeContributions token contributions total) ctx b fun total' b' =>
      total' = total + (contributions.map (·.amount)).sum ∧ (∀ c ∈ contributions, 0 < c.amount) ∧
        Bank.outflow b'.log ctx.contract = Bank.outflow b.log ctx.contract ∧
        b'.balance token ctx.contract = b.balance token ctx.contract + (contributions.map (·.amount)).sum := by
  induction contributions generalizing total b with
  | nil => simp [takeContributions]
  | cons c rest ih =>
    simp only [takeContributions, yields_steps, yields_requireAuth, yields_collect, yields_i128]
    intro hpos hauth _ _ _
    refine (ih _ _).mono fun total' b' hrest => ?_
    obtain ⟨htotal, hall, hout, hin⟩ := hrest
    rw [Bank.outflow_move, if_neg hauth.2, zero_add] at hout
    rw [Bank.balance_paid_in _ _ _ hauth.2, if_pos rfl] at hin
    rw [List.map_cons, List.sum_cons]
    exact ⟨by omega, List.forall_mem_cons.2 ⟨hpos, hall⟩, hout, by omega⟩

theorem yields_recordContributions (p : Nat) (total : Int) (contributions : List SyndicateContribution)
    (g : VouchSyndicates) :
    Yields (recordContributions p total contributions) ctx g fun _ g' => g'.syndicatePool = g.syndicatePool ∧
      ∀ q a, g'.syndicateMember q a =
        if q = p then recordedOf total contributions a (g.syndicateMember q a) else g.syndicateMember q a := by
  induction contributions generalizing g with
  | nil =>
    simp [recordContributions, recordedOf]
  | cons c rest ih =>
    simp only [recordContributions, onSyndicates, yields_bind]
    refine (yields_bpsOf _ _ _).mono ?_
    rintro share g₁ ⟨rfl, rfl⟩
    rw [yields_alter]
    refine (ih _).mono fun _ g' hrest => ⟨hrest.1, fun q a => ?_⟩
    rw [hrest.2, VouchSyndicates.setMember_syndicateMember]
    by_cases hq : q = p
    · simp [hq, recordedOf, SyndicateContribution.record, eq_comm]
    · simp [hq]

theorem yields_distributeShares (p : Nat) (token : Address) (rewards : Int) (members : List Address) (distributed : Int)
    (s : VouchSyndicateStore) :
    Yields (distributeShares p token rewards members distributed) ctx s fun distributed' t =>
      distributed' = distributed + (members.map (s.syndicates.rewardOf p rewards)).sum ∧
        Bank.outflow t.bank.log ctx.contract =
          Bank.outflow s.bank.log ctx.contract + (members.map (s.syndicates.rewardOf p rewards)).sum ∧
        t.syndicates.syndicatePool = s.syndicates.syndicatePool ∧ ∀ q, s.syndicates.SameTerms q t.syndicates := by
  induction members generalizing distributed s with
  | nil => simp [distributeShares, VouchSyndicates.SameTerms.of_eq]
  | cons a rest ih =>
    simp only [distributeShares, onSyndicates, yields_steps, yields_getSyndicateMember, yields_i128, yields_ite,
      yields_pay, yields_parts]
    intro m hm _
    have hshare : s.syndicates.shareOf p a = m.shareBps := VouchSyndicates.shareOf_some hm
    refine ⟨fun hpos _ _ _ _ => (ih _ _).mono fun _ t hrest => ?_, fun hnot => (ih _ _).mono fun _ t hrest => ?_⟩
    · obtain ⟨htotal, hout, hpools, hterms⟩ := hrest
      have hown : s.syndicates.rewardOf p rewards a = (rewards * m.shareBps).tdiv 10000 := by
        rw [VouchSyndicates.rewardOf, hshare, max_eq_right hpos.le]
      have hfirst : ∀ q, s.syndicates.SameTerms q (s.syndicates.setMember p a _) :=
        VouchSyndicates.sameTerms_setMember hm (m.rewardsReceived + (rewards * m.shareBps).tdiv 10000)
      have hlog : Bank.outflow (s.bank.move token ctx.contract a ((rewards * m.shareBps).tdiv 10000)).log ctx.contract =
          Bank.outflow s.bank.log ctx.contract + s.syndicates.rewardOf p rewards a := by
        rw [Bank.outflow_paid, hown]
      have hrewards := (hfirst p).rewardOf rewards
      rw [List.map_cons, List.sum_cons]
      refine ⟨?_, ?_, hpools, fun q => (hfirst q).trans (hterms q)⟩
      · rw [← add_assoc, hown, ← hrewards]
        exact htotal
      · rw [← add_assoc, ← hlog, ← hrewards]
        exact hout
    · obtain ⟨htotal, hout, hpools, hterms⟩ := hrest
      have hown : s.syndicates.rewardOf p rewards a = 0 := by
        rw [VouchSyndicates.rewardOf, hshare, max_eq_left (not_lt.1 hnot)]
      rw [List.map_cons, List.sum_cons, hown, zero_add]
      exact ⟨htotal, hout, hpools, hterms⟩

theorem yields_returnContributions (p : Nat) (token : Address) (members : List Address) (s : VouchSyndicateStore) :
    Yields (returnContributions p token members) ctx s fun _ t => t.syndicates = s.syndicates ∧
      Bank.outflow t.bank.log ctx.contract =
        Bank.outflow s.bank.log ctx.contract + (members.map fun a => max 0 (s.syndicates.contributionOf p a)).sum := by
  induction members generalizing s with
  | nil => simp [returnContributions]
  | cons a rest ih =>
    simp only [returnContributions, yields_bind, yields_getSyndicateMember, yields_ite, yields_pay, yields_parts]
    intro m hm
    have hown : s.syndicates.contributionOf p a = m.contribution := VouchSyndicates.contributionOf_some hm
    rw [List.map_cons, List.sum_cons, hown]
    refine ⟨fun hpos _ _ => (ih _).mono fun _ t hrest => ⟨hrest.1, hrest.2.trans ?_⟩, fun hnot => ?_⟩
    · rw [max_eq_right hpos.le]
      show Bank.outflow (s.bank.move token ctx.contract a m.contribution).log ctx.contract + _ = _
      rw [Bank.outflow_paid]
      exact add_assoc _ _ _
    · rw [max_eq_left (not_lt.1 hnot), zero_add]
      exact ih s

theorem yields_recomputeShares (p : Nat) (total : Int) (members : List Address) (g : VouchSyndicates) :
    Yields (recomputeShares p total members) ctx g fun _ g' => g'.syndicatePool = g.syndicatePool ∧
      ∀ q a, g'.syndicateMember q a =
        if q = p ∧ a ∈ members then
          (g.syndicateMember q a).map fun m => { m with shareBps := shareBpsOf m.contribution total }
        else g.syndicateMember q a := by
  induction members generalizing g with
  | nil => simp [recomputeShares]
  | cons b rest ih =>
    simp only [recomputeShares, onSyndicates, yields_bind, yields_getSyndicateMember]
    intro m hm
    refine (yields_bpsOf _ _ _).mono ?_
    rintro share g₁ ⟨rfl, rfl⟩
    rw [yields_alter]
    refine (ih _).mono fun _ g' hrest => ⟨hrest.1, fun q a => ?_⟩
    rw [hrest.2, VouchSyndicates.setMember_syndicateMember]
    by_cases hq : q = p
    · by_cases hab : a = b
      · simp [hq, hab, hm]
      · simp [hq, hab]
    · simp [hq]

end

/-! ## What a call does -/

/-- What a call that goes through found and did. -/
inductive VouchSyndicateEffect (w : World) (s t : VouchSyndicateStore) : VouchSyndicateOp → Prop
  | created {creator p token contributions} (pool : SyndicatePool) : s.syndicates.syndicatePool p = none →
      contributions ≠ [] → (∀ c ∈ contributions, 0 < c.amount) → pool.members = contributions.map (·.member) →
      pool.totalStake = (contributions.map (·.amount)).sum → pool.pendingRewards = 0 → pool.active = true →
      t.syndicates.syndicatePool = update s.syndicates.syndicatePool p (some pool) →
      (∀ q a, t.syndicates.syndicateMember q a =
        if q = p then recordedOf pool.totalStake contributions a (s.syndicates.syndicateMember q a)
        else s.syndicates.syndicateMember q a) →
      Bank.outflow t.bank.log w.contract = Bank.outflow s.bank.log w.contract →
      t.bank.balance token w.contract = s.bank.balance token w.contract + pool.totalStake →
      VouchSyndicateEffect w s t (.createVouchSyndicate creator p token contributions)
  | credited {p amount pool} : s.syndicates.syndicatePool p = some pool → pool.active = true → 0 < amount →
      t = { s with
        syndicates := s.syndicates.setPool p { pool with pendingRewards := pool.pendingRewards + amount } } →
      VouchSyndicateEffect w s t (.creditSyndicateReward p amount)
  | slashed {p amount} (perf : SyndicatePerformance) :
      t = { s with syndicates := s.syndicates.setPerformance p perf } →
      VouchSyndicateEffect w s t (.recordSyndicateSlash p amount)
  | nothingPending {p} : t = s → VouchSyndicateEffect w s t (.distributeSyndicateRewards p)
  | distributed {p pool} : s.syndicates.syndicatePool p = some pool → pool.active = true → 0 < pool.pendingRewards →
      t.syndicates.syndicatePool = update s.syndicates.syndicatePool p (some { pool with
        pendingRewards :=
          pool.pendingRewards - (pool.members.map (s.syndicates.rewardOf p pool.pendingRewards)).sum }) →
      (∀ q, s.syndicates.SameTerms q t.syndicates) →
      Bank.outflow t.bank.log w.contract = Bank.outflow s.bank.log w.contract +
        (pool.members.map (s.syndicates.rewardOf p pool.pendingRewards)).sum →
      VouchSyndicateEffect w s t (.distributeSyndicateRewards p)
  | proposed {p proposer description} : t.bank = s.bank → t.syndicates.syndicatePool = s.syndicates.syndicatePool →
      t.syndicates.syndicateMember = s.syndicates.syndicateMember →
      VouchSyndicateEffect w s t (.proposeSyndicateAction p proposer description)
  | voted {p id voter approve} : t.bank = s.bank → t.syndicates.syndicatePool = s.syndicates.syndicatePool →
      t.syndicates.syndicateMember = s.syndicates.syndicateMember →
      VouchSyndicateEffect w s t (.voteSyndicateProposal p id voter approve)
  | dissolved {p id pool} : s.syndicates.syndicatePool p = some pool → pool.active = true →
      t.syndicates.syndicatePool =
        update s.syndicates.syndicatePool p (some { pool with active := false, totalStake := 0 }) →
      t.syndicates.syndicateMember = s.syndicates.syndicateMember →
      Bank.outflow t.bank.log w.contract = Bank.outflow s.bank.log w.contract +
        (pool.members.map fun a => max 0 (s.syndicates.contributionOf p a)).sum →
      VouchSyndicateEffect w s t (.executeSyndicateProposal p id)
  | left {p member pool} (returnedStake : Int) : s.syndicates.syndicatePool p = some pool →
      (s.syndicates.syndicateMember p member).isSome = true →
      returnedStake = min ((pool.totalStake * s.syndicates.shareOf p member).tdiv 10000) pool.totalStake →
      ¬ (pool.active = true ∧ pool.totalStake - returnedStake ≤ 0) →
      t.syndicates.syndicatePool = update s.syndicates.syndicatePool p (some { pool with
        totalStake := pool.totalStake - returnedStake, members := pool.members.filter (· ≠ member) }) →
      (∀ q a, t.syndicates.syndicateMember q a =
        if q = p ∧ a = member then none
        else if 0 < pool.totalStake - returnedStake ∧ q = p ∧ a ∈ pool.members.filter (· ≠ member) then
          (s.syndicates.syndicateMember q a).map fun m =>
            { m with shareBps := shareBpsOf m.contribution (pool.totalStake - returnedStake) }
        else s.syndicates.syndicateMember q a) →
      Bank.outflow t.bank.log w.contract = Bank.outflow s.bank.log w.contract + returnedStake →
      VouchSyndicateEffect w s t (.leaveSyndicate p member)

theorem yields_vouchSyndicateOp {ctx : Context} (op : VouchSyndicateOp) (s : VouchSyndicateStore) :
    Yields op.run ctx s fun _ t => VouchSyndicateEffect ctx.toWorld s t op := by
  cases op with
  | createVouchSyndicate creator p token contributions =>
    simp only [VouchSyndicateOp.run, createVouchSyndicate, onSyndicates, yields_steps, yields_requireAuth,
      yields_requireAllowedToken, yields_parts]
    intro _ hnone hsome _
    refine (yields_takeContributions _ _ _ _).mono fun total b hin => ?_
    obtain ⟨htotal, hpos, hout, hbalance⟩ := hin
    rw [zero_add] at htotal
    refine (yields_recordContributions _ _ _ _).mono fun _ g hrecords => ?_
    obtain ⟨hpools, hmembers⟩ := hrecords
    refine .created _ hnone hsome hpos rfl htotal rfl rfl (congrArg (update · p _) hpools) hmembers hout ?_
    rw [htotal]
    exact hbalance
  | creditSyndicateReward p amount =>
    simp only [VouchSyndicateOp.run, creditSyndicateReward, onSyndicates, yields_steps, yields_getSyndicatePool,
      yields_i128, yields_parts]
    exact fun hpos pool hpool hactive _ => .credited hpool hactive hpos rfl
  | recordSyndicateSlash p amount =>
    simp only [VouchSyndicateOp.run, recordSyndicateSlash, onSyndicates, yields_steps, yields_i128, yields_parts]
    exact fun perf _ _ => .slashed _ rfl
  | distributeSyndicateRewards p =>
    simp only [VouchSyndicateOp.run, distributeSyndicateRewards, onSyndicates, yields_steps, yields_requireAllowedToken,
      yields_getSyndicatePool, yields_i128, yields_ite, yields_parts]
    intro pool hpool hactive _
    refine ⟨fun _ => .nothingPending rfl, fun hpending _ => ?_⟩
    refine (yields_distributeShares _ _ _ _ _ _).mono fun distributed t hpaid => ?_
    obtain ⟨htotal, hout, hpools, hterms⟩ := hpaid
    have hall : distributed = (pool.members.map (s.syndicates.rewardOf p pool.pendingRewards)).sum :=
      htotal.trans (zero_add _)
    intro _ perf _ _
    refine .distributed hpool hactive (not_le.1 hpending) ?_ (fun q => (hterms q).trans (.of_eq rfl)) hout
    rw [← hall]
    exact congrArg (update · p _) hpools
  | proposeSyndicateAction p proposer description =>
    simp only [VouchSyndicateOp.run, discard, proposeSyndicateAction, onSyndicates, yields_steps, yields_requireAuth,
      yields_getSyndicateMember, yields_u64, yields_parts]
    exact fun _ _ _ _ => .proposed rfl rfl rfl
  | voteSyndicateProposal p id voter approve =>
    simp only [VouchSyndicateOp.run, voteSyndicateProposal, onSyndicates, yields_steps, yields_requireAuth,
      yields_getSyndicateMember, yields_ite, yields_parts]
    exact fun _ _ _ _ _ _ => ⟨fun _ => .voted rfl rfl rfl, fun _ => .voted rfl rfl rfl⟩
  | executeSyndicateProposal p id =>
    simp only [VouchSyndicateOp.run, executeSyndicateProposal, onSyndicates, yields_steps, yields_requireAllowedToken,
      yields_getSyndicatePool, yields_parts]
    intro proposal _ _ pool hpool hactive _
    refine (yields_returnContributions _ _ _ _).mono fun _ t hpaid => ?_
    obtain ⟨hsame, hout⟩ := hpaid
    have hpools := congrArg VouchSyndicates.syndicatePool hsame
    have hmembers := congrArg VouchSyndicates.syndicateMember hsame
    exact .dissolved hpool hactive (congrArg (update · p _) hpools) hmembers hout
  | leaveSyndicate p member =>
    simp only [VouchSyndicateOp.run, leaveSyndicate, onSyndicates, yields_steps, yields_requireAuth,
      yields_requireAllowedToken, yields_getSyndicatePool, yields_getSyndicateMember, yields_i128, yields_ite,
      yields_pay, yields_parts]
    intro _ pool hpool m hm _ _ hremains _ _ _
    have hshare : s.syndicates.shareOf p member = m.shareBps := VouchSyndicates.shareOf_some hm
    have hsome : (s.syndicates.syndicateMember p member).isSome = true := Option.isSome_iff_exists.2 ⟨m, hm⟩
    refine ⟨fun hpos => (yields_recomputeShares _ _ _ _).mono fun _ g hrecomputed => ?_, fun hnot => ?_⟩
    · obtain ⟨hpools, hmembers⟩ := hrecomputed
      refine .left _ hpool hsome (by rw [hshare]) hremains (congrArg (update · p _) hpools) (fun q a => ?_)
        (Bank.outflow_paid ..)
      refine (hmembers q a).trans ?_
      show (if q = p ∧ a ∈ pool.members.filter (· ≠ member) then
        ((s.syndicates.setMember p member none).syndicateMember q a).map _
        else (s.syndicates.setMember p member none).syndicateMember q a) = _
      rw [VouchSyndicates.setMember_syndicateMember]
      by_cases hleft : q = p ∧ a = member
      · simp [hleft]
      · simp only [if_neg hleft, hpos, true_and]
    · refine .left _ hpool hsome (by rw [hshare]) hremains rfl (fun q a => ?_)
        (Bank.outflow_paid ..)
      rw [if_neg (c := 0 < _ ∧ _) fun h => hnot h.1]
      exact VouchSyndicates.setMember_syndicateMember q member a none

theorem vouchSyndicateEffect_of {s : Situated World VouchSyndicateStore} {signers : List Address}
    {op : VouchSyndicateOp} {t : VouchSyndicateStore} (he : vouchSyndicates.exec s signers op = some t) :
    VouchSyndicateEffect s.world s.store t op :=
  Component.exec_yields (Q := fun t => VouchSyndicateEffect s.world s.store t op)
    (yields_vouchSyndicateOp op s.store) he

/-! ## Money in and out -/

def VouchSyndicateOp.pool : VouchSyndicateOp → Nat
  | .createVouchSyndicate _ p _ _ | .creditSyndicateReward p _ | .recordSyndicateSlash p _
  | .distributeSyndicateRewards p | .proposeSyndicateAction p _ _ | .voteSyndicateProposal p _ _ _
  | .executeSyndicateProposal p _ | .leaveSyndicate p _ => p

/-- What the contract transfers out in a call on the pool. -/
def poolPaidBy (p : Nat) (s : Situated World VouchSyndicateStore) (op : VouchSyndicateOp) (t : VouchSyndicateStore) :
    Int :=
  if op.pool = p then
    Bank.outflow t.bank.log s.world.contract - Bank.outflow s.store.bank.log s.world.contract
  else 0

/-- What the creation of the pool adds to the contract's balance. -/
def poolTakenBy (p : Nat) (s : Situated World VouchSyndicateStore) (op : VouchSyndicateOp) (t : VouchSyndicateStore) :
    Int :=
  match op with
  | .createVouchSyndicate _ p' token _ =>
    if p' = p then t.bank.balance token s.world.contract - s.store.bank.balance token s.world.contract else 0
  | _ => 0

def poolCreditedBy (p : Nat) (_ : Situated World VouchSyndicateStore) (op : VouchSyndicateOp)
    (_ : VouchSyndicateStore) : Int :=
  match op with
  | .creditSyndicateReward p' amount => if p' = p then amount else 0
  | _ => 0

def poolPaid (p : Nat) : VouchSyndicateHistory → Int := vouchSyndicates.tally (poolPaidBy p)
def poolTaken (p : Nat) : VouchSyndicateHistory → Int := vouchSyndicates.tally (poolTakenBy p)
def poolCredited (p : Nat) : VouchSyndicateHistory → Int := vouchSyndicates.tally (poolCreditedBy p)

/-- What came in for the pool and has not gone out. -/
def poolHand (p : Nat) (h : VouchSyndicateHistory) : Int := poolTaken p h + poolCredited p h - poolPaid p h

/-- No more was paid out for the pool than came in, and its members' shares are of one whole. -/
def PoolSolvent (p : Nat) (h : VouchSyndicateHistory) (s : Situated World VouchSyndicateStore) : Prop :=
  poolPaid p h ≤ poolTaken p h + poolCredited p h ∧
    ∀ pool, s.store.syndicates.syndicatePool p = some pool →
      (pool.members.map (s.store.syndicates.shareOf p)).sum ≤ 10000

/-- The amount of the address's last contribution. -/
def lastAmount (contributions : List SyndicateContribution) (a : Address) : Int :=
  contributions.foldl (fun x c => if c.member = a then c.amount else x) 0

/-- The last contributions of those listed, each as often as listed, are within the total. -/
def RecordsCovered (contributions : List SyndicateContribution) : Prop :=
  (contributions.map fun c => lastAmount contributions c.member).sum ≤ (contributions.map (·.amount)).sum

instance (contributions : List SyndicateContribution) : Decidable (RecordsCovered contributions) :=
  inferInstanceAs (Decidable (_ ≤ _))

/-- The pool is created with records that its stake covers. -/
def CreatesCovered (p : Nat) (_ : Situated World VouchSyndicateStore) (op : VouchSyndicateOp) : Prop :=
  match op with
  | .createVouchSyndicate _ p' _ contributions => p' = p → RecordsCovered contributions
  | _ => True

instance (p : Nat) (s : Situated World VouchSyndicateStore) (op : VouchSyndicateOp) :
    Decidable (CreatesCovered p s op) := by
  unfold CreatesCovered
  split <;> infer_instance

/-! ## The books of a pool -/

/-- What a pool's records keep, with `hand` left of what came in for it. -/
structure PoolBooks (g : VouchSyndicates) (p : Nat) (pool : SyndicatePool) (hand : Int) : Prop where
  listed : ∀ a, (g.syndicateMember p a).isSome = true → a ∈ pool.members
  contribution : ∀ a, 0 ≤ g.contributionOf p a
  shares : (pool.members.map (g.shareOf p)).sum ≤ 10000
  inHand : 0 ≤ hand
  stake : pool.active = true → 0 < pool.totalStake
  pending : pool.active = true → 0 ≤ pool.pendingRewards
  covered : pool.active = true → (pool.members.map (g.contributionOf p)).sum ≤ pool.totalStake
  prorata : pool.active = true → ∀ a, g.shareOf p a * pool.totalStake ≤ g.contributionOf p a * 10000
  funded : pool.active = true → pool.totalStake + pool.pendingRewards ≤ hand
  dissolved : pool.active = false → pool.totalStake = 0

/-- Before the pool is created it has no members and no money. -/
structure VouchBooks (p : Nat) (g : VouchSyndicates) (hand : Int) : Prop where
  absent : g.syndicatePool p = none → hand = 0 ∧ ∀ a, g.syndicateMember p a = none
  present : ∀ pool, g.syndicatePool p = some pool → PoolBooks g p pool hand

section

variable {g g' : VouchSyndicates} {p : Nat} {pool : SyndicatePool} {hand : Int}

theorem shareOf_nonneg (g : VouchSyndicates) (p : Nat) (a : Address) : 0 ≤ g.shareOf p a := by
  unfold VouchSyndicates.shareOf
  cases g.syndicateMember p a with
  | none => exact le_rfl
  | some m => exact Int.natCast_nonneg _

/-- The shares are of one whole if each is its contribution's part of the stake. -/
theorem shares_le {members : List Address} {total : Int} (htotal : 0 < total)
    (hprorata : ∀ a, g.shareOf p a * total ≤ g.contributionOf p a * 10000)
    (hcovered : (members.map (g.contributionOf p)).sum ≤ total) : (members.map (g.shareOf p)).sum ≤ 10000 :=
  sum_le_of_prorata htotal (by decide) (fun a _ => hprorata a) hcovered

theorem PoolBooks.sameTerms (h : PoolBooks g p pool hand) (hterms : g.SameTerms p g') : PoolBooks g' p pool hand := by
  have hcontribution : g'.contributionOf p = g.contributionOf p := funext hterms.contribution
  have hshare : g'.shareOf p = g.shareOf p := funext hterms.share
  refine ⟨fun a ha => h.listed a ?_, ?_, ?_, h.inHand, h.stake, h.pending, ?_, ?_, h.funded, h.dissolved⟩
  · rw [← hterms.isSome]
    exact ha
  · rw [hcontribution]
    exact h.contribution
  · rw [hshare]
    exact h.shares
  · rw [hcontribution]
    exact h.covered
  · rw [hcontribution, hshare]
    exact h.prorata

theorem VouchBooks.congr (h : VouchBooks p g hand) (hpool : g'.syndicatePool p = g.syndicatePool p)
    (hterms : g.SameTerms p g') : VouchBooks p g' hand := by
  refine ⟨fun hnone => ?_, fun pool hsome => ?_⟩
  · obtain ⟨hhand, hmembers⟩ := h.absent (hpool ▸ hnone)
    refine ⟨hhand, fun a => ?_⟩
    have hisSome := hterms.isSome a
    rw [hmembers a] at hisSome
    exact Option.isNone_iff_eq_none.1 (by simpa using hisSome)
  · exact (h.present pool (hpool ▸ hsome)).sameTerms hterms

theorem VouchBooks.of_stored {pools : Nat → Option SyndicatePool}
    (hstored : g.syndicatePool = update pools p (some pool)) (h : PoolBooks g p pool hand) : VouchBooks p g hand := by
  have hself : g.syndicatePool p = some pool := by rw [hstored, update_self]
  refine ⟨fun hnone => ?_, fun pool' hsome => ?_⟩
  · cases hself.symm.trans hnone
  · cases hself.symm.trans hsome
    exact h

/-! ## Creation -/

section

variable {total : Int} {contributions : List SyndicateContribution} {a : Address}

theorem recordedOf_cons (c : SyndicateContribution) (m : Option SyndicateMember) :
    recordedOf total (c :: contributions) a m =
      recordedOf total contributions a (if c.member = a then some (c.record total) else m) := rfl

theorem recordedOf_isSome {m : Option SyndicateMember} (h : (recordedOf total contributions a m).isSome = true) :
    m.isSome = true ∨ a ∈ contributions.map (·.member) := by
  induction contributions generalizing m with
  | nil => exact .inl h
  | cons c rest ih =>
    rw [recordedOf_cons] at h
    rw [List.map_cons, List.mem_cons]
    rcases ih h with hsome | hrest
    · by_cases hc : c.member = a
      · exact .inr (.inl hc.symm)
      · rw [if_neg hc] at hsome
        exact .inl hsome
    · exact .inr (.inr hrest)

/-- The record is of one of the contributions, or as it was. -/
theorem recordedOf_cases {m : Option SyndicateMember} :
    recordedOf total contributions a m = m ∨
      ∃ c ∈ contributions, recordedOf total contributions a m = some (c.record total) := by
  induction contributions generalizing m with
  | nil => exact .inl rfl
  | cons c rest ih =>
    rw [recordedOf_cons]
    rcases ih (m := if c.member = a then some (c.record total) else m) with hsame | ⟨c', hc', hrec⟩
    · rw [hsame]
      split
      · exact .inr ⟨c, List.mem_cons_self, rfl⟩
      · exact .inl rfl
    · exact .inr ⟨c', List.mem_cons_of_mem _ hc', hrec⟩

theorem recordedOf_contribution (m : Option SyndicateMember) :
    ((recordedOf total contributions a m).map (·.contribution)).getD 0 =
      contributions.foldl (fun x c => if c.member = a then c.amount else x) ((m.map (·.contribution)).getD 0) := by
  induction contributions generalizing m with
  | nil => rfl
  | cons c rest ih =>
    rw [recordedOf_cons, ih, List.foldl_cons]
    congr 1
    split <;> rfl

end

theorem books_created {contributions : List SyndicateContribution} (hne : contributions ≠ [])
    (hpos : ∀ c ∈ contributions, 0 < c.amount) (hmembers : pool.members = contributions.map (·.member))
    (htotal : pool.totalStake = (contributions.map (·.amount)).sum) (hpending : pool.pendingRewards = 0)
    (hactive : pool.active = true)
    (hrecords : ∀ a, g.syndicateMember p a = recordedOf pool.totalStake contributions a none)
    (hcovered : RecordsCovered contributions) : PoolBooks g p pool pool.totalStake := by
  have hstake : 0 < pool.totalStake := by
    rw [htotal]
    exact List.sum_pos _ (List.forall_mem_map.2 hpos) (by simpa using hne)
  have hlast : ∀ a, g.contributionOf p a = lastAmount contributions a := by
    intro a
    rw [VouchSyndicates.contributionOf, hrecords, recordedOf_contribution]
    rfl
  have hterms : ∀ a, 0 ≤ g.contributionOf p a ∧ g.shareOf p a * pool.totalStake ≤ g.contributionOf p a * 10000 := by
    intro a
    have hof : recordedOf pool.totalStake contributions a none = none ∨
        ∃ c ∈ contributions, recordedOf pool.totalStake contributions a none = some (c.record pool.totalStake) :=
      recordedOf_cases
    rcases hof with hnone | ⟨c, hc, hsome⟩
    · rw [← hrecords] at hnone
      simp [VouchSyndicates.contributionOf, VouchSyndicates.shareOf, hnone]
    · rw [← hrecords] at hsome
      rw [VouchSyndicates.contributionOf_some hsome, VouchSyndicates.shareOf_some hsome]
      exact ⟨(hpos c hc).le, shareBpsOf_mul_le (hpos c hc).le hstake⟩
  have hsum : (pool.members.map (g.contributionOf p)).sum ≤ pool.totalStake := by
    rw [hmembers, List.map_map, htotal]
    refine le_trans (le_of_eq ?_) hcovered
    exact congrArg List.sum (List.map_congr_left fun c _ => hlast c.member)
  refine ⟨fun a ha => ?_, fun a => (hterms a).1, shares_le hstake (fun a => (hterms a).2) hsum, hstake.le,
    fun _ => hstake, fun _ => hpending.ge, fun _ => hsum, fun _ a => (hterms a).2, fun _ => ?_, fun hnot => ?_⟩
  · rw [hrecords] at ha
    rw [hmembers]
    exact (recordedOf_isSome ha).resolve_left (by simp)
  · rw [hpending, add_zero]
  · rw [hactive] at hnot
    cases hnot

/-! ## The other calls -/

theorem PoolBooks.credited (h : PoolBooks g p pool hand) (hactive : pool.active = true) {amount : Int}
    (hpos : 0 < amount) :
    PoolBooks g p { pool with pendingRewards := pool.pendingRewards + amount } (hand + amount) := by
  have hpending := h.pending hactive
  have hfunded := h.funded hactive
  have hhand := h.inHand
  refine { h with inHand := ?_, pending := fun _ => ?_, funded := fun _ => ?_ }
  · omega
  · show 0 ≤ pool.pendingRewards + amount
    omega
  · show pool.totalStake + (pool.pendingRewards + amount) ≤ hand + amount
    omega

/-- The rewards of the members are within the pending ones. -/
theorem rewards_le (h : PoolBooks g p pool hand) {rewards : Int} (hpos : 0 ≤ rewards) :
    (pool.members.map (g.rewardOf p rewards)).sum ≤ rewards := by
  have hwhole : (0 : Int) < 10000 := by decide
  refine sum_le_of_prorata hwhole hpos (fun a _ => ?_) h.shares
  have hscaled : 0 ≤ rewards * g.shareOf p a := mul_nonneg hpos (shareOf_nonneg g p a)
  have hreward : g.rewardOf p rewards a = (rewards * g.shareOf p a).tdiv 10000 :=
    max_eq_right (Int.tdiv_nonneg hscaled (by decide))
  rw [hreward, mul_comm (g.shareOf p a)]
  exact tdiv_mul_le hscaled (by decide)

theorem PoolBooks.distributed (h : PoolBooks g p pool hand) (hactive : pool.active = true)
    (hpending : 0 < pool.pendingRewards) {paid : Int}
    (hpaid : paid = (pool.members.map (g.rewardOf p pool.pendingRewards)).sum) :
    PoolBooks g p { pool with pendingRewards := pool.pendingRewards - paid } (hand - paid) := by
  have hle : paid ≤ pool.pendingRewards := hpaid ▸ rewards_le h hpending.le
  have hfunded := h.funded hactive
  have hstake := h.stake hactive
  refine { h with inHand := ?_, pending := fun _ => ?_, funded := fun _ => ?_ }
  · omega
  · show 0 ≤ pool.pendingRewards - paid
    omega
  · show pool.totalStake + (pool.pendingRewards - paid) ≤ hand - paid
    omega

theorem PoolBooks.dissolve (h : PoolBooks g p pool hand) (hactive : pool.active = true) {paid : Int}
    (hpaid : paid = (pool.members.map fun a => max 0 (g.contributionOf p a)).sum) :
    PoolBooks g p { pool with active := false, totalStake := 0 } (hand - paid) := by
  have hall : paid = (pool.members.map (g.contributionOf p)).sum := by
    rw [hpaid]
    exact congrArg List.sum (List.map_congr_left fun a _ => max_eq_right (h.contribution a))
  have hcovered := h.covered hactive
  have hpending := h.pending hactive
  have hfunded := h.funded hactive
  refine ⟨h.listed, h.contribution, h.shares, ?_, ?_, ?_, ?_, ?_, ?_, fun _ => rfl⟩
  · omega
  all_goals exact fun hnot => absurd hnot Bool.false_ne_true

/-- What a leaving member takes is within the recorded contribution. -/
theorem returned_le (h : PoolBooks g p pool hand) (hactive : pool.active = true) (a : Address) :
    (pool.totalStake * g.shareOf p a).tdiv 10000 ≤ g.contributionOf p a := by
  have hstake := h.stake hactive
  have hprorata := h.prorata hactive a
  have hscaled : 0 ≤ pool.totalStake * g.shareOf p a := mul_nonneg hstake.le (shareOf_nonneg g p a)
  have hround := tdiv_mul_le hscaled (show (0 : Int) < 10000 by decide)
  rw [mul_comm (g.shareOf p a)] at hprorata
  omega

end

section

variable {g g' : VouchSyndicates} {p : Nat} {pool : SyndicatePool} {hand : Int} {member : Address} {returned : Int}

/-- The records of a pool that a member left. -/
def LeftBy (g g' : VouchSyndicates) (p : Nat) (member : Address) (remaining : Int) (members : List Address) : Prop :=
  ∀ a, g'.syndicateMember p a =
    if a = member then none
    else if 0 < remaining ∧ a ∈ members then
      (g.syndicateMember p a).map fun m => { m with shareBps := shareBpsOf m.contribution remaining }
    else g.syndicateMember p a

theorem LeftBy.contributionOf {remaining : Int} {members : List Address}
    (h : LeftBy g g' p member remaining members) {a : Address} (ha : a ≠ member) :
    g'.contributionOf p a = g.contributionOf p a := by
  rw [VouchSyndicates.contributionOf, h a, if_neg ha]
  split
  · rw [Option.map_map]
    rfl
  · rfl

theorem LeftBy.isSome {remaining : Int} {members : List Address} (h : LeftBy g g' p member remaining members)
    {a : Address} (ha : (g'.syndicateMember p a).isSome = true) :
    a ≠ member ∧ (g.syndicateMember p a).isSome = true := by
  rw [h a] at ha
  by_cases hmember : a = member
  · simp [hmember] at ha
  · refine ⟨hmember, ?_⟩
    rw [if_neg hmember] at ha
    split at ha
    · simpa using ha
    · exact ha

theorem LeftBy.shareOf {remaining : Int} {members : List Address} (h : LeftBy g g' p member remaining members)
    (hpos : 0 < remaining) {a : Address} (ha : a ∈ members) (hne : a ≠ member)
      (hcontribution : 0 ≤ g.contributionOf p a) :
    g'.shareOf p a * remaining ≤ g.contributionOf p a * 10000 := by
  rw [VouchSyndicates.shareOf, h a, if_neg hne, if_pos ⟨hpos, ha⟩]
  cases hm : g.syndicateMember p a with
  | none =>
    rw [VouchSyndicates.contributionOf, hm]
    simp
  | some m =>
    rw [VouchSyndicates.contributionOf_some hm] at hcontribution ⊢
    exact shareBpsOf_mul_le hcontribution hpos

theorem PoolBooks.left (h : PoolBooks g p pool hand) (hsome : (g.syndicateMember p member).isSome = true)
    (hreturned : returned = min ((pool.totalStake * g.shareOf p member).tdiv 10000) pool.totalStake)
    (hremains : ¬ (pool.active = true ∧ pool.totalStake - returned ≤ 0))
    (hrecords : LeftBy g g' p member (pool.totalStake - returned) (pool.members.filter (· ≠ member))) :
    PoolBooks g' p { pool with
      totalStake := pool.totalStake - returned, members := pool.members.filter (· ≠ member) } (hand - returned) := by
  have hmember := h.listed member hsome
  have hlisted : ∀ a, (g'.syndicateMember p a).isSome = true → a ∈ pool.members.filter (· ≠ member) := by
    intro a ha
    obtain ⟨hne, hsome⟩ := hrecords.isSome ha
    exact List.mem_filter.2 ⟨h.listed a hsome, decide_eq_true hne⟩
  have hnone : g'.syndicateMember p member = none := (hrecords member).trans (if_pos rfl)
  have hcontribution : ∀ a, 0 ≤ g'.contributionOf p a := by
    intro a
    by_cases ha : a = member
    · rw [ha, VouchSyndicates.contributionOf, hnone]
      exact le_rfl
    · rw [hrecords.contributionOf ha]
      exact h.contribution a
  have hsame : (pool.members.filter (· ≠ member)).map (g'.contributionOf p) =
      (pool.members.filter (· ≠ member)).map (g.contributionOf p) :=
    List.map_congr_left fun a ha => hrecords.contributionOf (of_decide_eq_true (List.mem_filter.1 ha).2)
  rcases Bool.eq_false_or_eq_true pool.active with hactive | hactive
  · have hstake := h.stake hactive
    have hfunded := h.funded hactive
    have hpending := h.pending hactive
    have hcovered := h.covered hactive
    have hwithin := returned_le h hactive member
    have hrest : 0 < pool.totalStake - returned := not_le.1 fun hle => hremains ⟨hactive, hle⟩
    have hsum : ((pool.members.filter (· ≠ member)).map (g'.contributionOf p)).sum ≤ pool.totalStake - returned := by
      have hleft := sum_filter_ne_add_le h.contribution hmember
      rw [hsame]
      omega
    have hprorata : ∀ a, g'.shareOf p a * (pool.totalStake - returned) ≤ g'.contributionOf p a * 10000 := by
      intro a
      by_cases ha : (g'.syndicateMember p a).isSome = true
      · obtain ⟨hne, -⟩ := hrecords.isSome ha
        rw [hrecords.contributionOf hne]
        exact hrecords.shareOf hrest (hlisted a ha) hne (h.contribution a)
      · rw [Option.not_isSome_iff_eq_none] at ha
        simp [VouchSyndicates.shareOf, VouchSyndicates.contributionOf, ha]
    refine ⟨hlisted, hcontribution, shares_le hrest hprorata hsum, by omega, fun _ => hrest, fun _ => hpending,
      fun _ => hsum, fun _ => hprorata, fun _ => ?_, fun hnot => ?_⟩
    · show pool.totalStake - returned + pool.pendingRewards ≤ hand - returned
      omega
    · exact absurd (hactive.symm.trans hnot) Bool.false_ne_true.symm
  · -- The stake of a dissolved pool is gone: nothing is returned and no share changes.
    have hzero := h.dissolved hactive
    rw [hzero, zero_mul, Int.zero_tdiv, min_self] at hreturned
    rw [hzero, hreturned, sub_zero] at hrecords ⊢
    rw [sub_zero]
    have hshare : (pool.members.filter (· ≠ member)).map (g'.shareOf p) =
        (pool.members.filter (· ≠ member)).map (g.shareOf p) := by
      refine List.map_congr_left fun a ha => ?_
      rw [VouchSyndicates.shareOf, hrecords a, if_neg (of_decide_eq_true (List.mem_filter.1 ha).2),
        if_neg fun hpos => lt_irrefl _ hpos.1, VouchSyndicates.shareOf]
    have hshares : ((pool.members.filter (· ≠ member)).map (g'.shareOf p)).sum ≤ 10000 := by
      have hleft := sum_filter_ne_add_le (shareOf_nonneg g p) hmember
      have hown := shareOf_nonneg g p member
      have hall := h.shares
      rw [hshare]
      omega
    have hnot : ∀ {q : Prop}, pool.active = true → q := fun hyes =>
      absurd (hactive.symm.trans hyes) Bool.false_ne_true
    exact ⟨hlisted, hcontribution, hshares, h.inHand, hnot, hnot, hnot, hnot, hnot, fun _ => rfl⟩

end

/-! ## Runs -/

section

variable {p : Nat} {h : VouchSyndicateHistory} {s : Situated World VouchSyndicateStore} {signers : List Address}
  {op : VouchSyndicateOp} {t : VouchSyndicateStore}

theorem poolHand_call (he : vouchSyndicates.exec s signers op = some t) :
    poolHand p ((s, .call signers op) :: h) =
      poolHand p h + (poolTakenBy p s op t + poolCreditedBy p s op t - poolPaidBy p s op t) := by
  have htaken : poolTaken p ((s, .call signers op) :: h) = poolTaken p h + poolTakenBy p s op t :=
    Component.tally_call he _ h
  have hcredited : poolCredited p ((s, .call signers op) :: h) = poolCredited p h + poolCreditedBy p s op t :=
    Component.tally_call he _ h
  have hpaid : poolPaid p ((s, .call signers op) :: h) = poolPaid p h + poolPaidBy p s op t :=
    Component.tally_call he _ h
  rw [poolHand, htaken, hcredited, hpaid, poolHand]
  omega

theorem poolHand_idle {e : Event World (List Address) VouchSyndicateStore VouchSyndicateOp}
    (hnone : vouchSyndicates.done s e = none) : poolHand p ((s, e) :: h) = poolHand p h := by
  have htaken : poolTaken p ((s, e) :: h) = poolTaken p h := Component.tally_idle hnone _ h
  have hcredited : poolCredited p ((s, e) :: h) = poolCredited p h := Component.tally_idle hnone _ h
  have hpaid : poolPaid p ((s, e) :: h) = poolPaid p h := Component.tally_idle hnone _ h
  rw [poolHand, htaken, hcredited, hpaid, poolHand]

theorem poolHand_other (he : vouchSyndicates.exec s signers op = some t) (hne : op.pool ≠ p) :
    poolHand p ((s, .call signers op) :: h) = poolHand p h := by
  have htaken : poolTakenBy p s op t = 0 := by
    cases op with
    | createVouchSyndicate => exact if_neg hne
    | _ => rfl
  have hcredited : poolCreditedBy p s op t = 0 := by
    cases op with
    | creditSyndicateReward => exact if_neg hne
    | _ => rfl
  have hpaid : poolPaidBy p s op t = 0 := if_neg hne
  rw [poolHand_call he, htaken, hcredited, hpaid]
  omega

theorem poolHand_own (he : vouchSyndicates.exec s signers op = some t) (hop : op.pool = p) {came paid : Int}
    (hcame : poolTakenBy p s op t + poolCreditedBy p s op t = came)
    (hout : Bank.outflow t.bank.log s.world.contract = Bank.outflow s.store.bank.log s.world.contract + paid) :
    poolHand p ((s, .call signers op) :: h) = poolHand p h + came - paid := by
  rw [poolHand_call he, hcame, poolPaidBy, if_pos hop]
  omega

/-- A call on another pool. -/
theorem pool_other (he : vouchSyndicates.exec s signers op = some t) (hne : op.pool ≠ p) :
    t.syndicates.syndicatePool p = s.store.syndicates.syndicatePool p ∧ s.store.syndicates.SameTerms p t.syndicates := by
  have hother : ∀ {pool}, t.syndicates.syndicatePool = update s.store.syndicates.syndicatePool op.pool (some pool) →
      t.syndicates.syndicatePool p = s.store.syndicates.syndicatePool p := fun hstored => by
    rw [hstored, update_of_ne (Ne.symm hne)]
  cases vouchSyndicateEffect_of he with
  | created pool _ _ _ _ _ _ _ hpools hmembers =>
    refine ⟨hother hpools, .of_eq (funext fun a => ?_)⟩
    exact (hmembers p a).trans (if_neg (Ne.symm hne))
  | credited _ _ _ ht =>
    rw [ht] at hother ⊢
    exact ⟨hother rfl, .of_eq rfl⟩
  | slashed perf ht =>
    rw [ht]
    exact ⟨rfl, .of_eq rfl⟩
  | nothingPending ht =>
    rw [ht]
    exact ⟨rfl, .of_eq rfl⟩
  | distributed _ _ _ hpools hterms => exact ⟨hother hpools, hterms p⟩
  | proposed _ hpools hmembers => exact ⟨congrFun hpools p, .of_eq (congrFun hmembers p)⟩
  | voted _ hpools hmembers => exact ⟨congrFun hpools p, .of_eq (congrFun hmembers p)⟩
  | dissolved _ _ hpools hmembers => exact ⟨hother hpools, .of_eq (congrFun hmembers p)⟩
  | left returned _ _ _ _ hpools hmembers =>
    refine ⟨hother hpools, .of_eq (funext fun a => ?_)⟩
    rw [hmembers, if_neg fun hleft => hne hleft.1.symm, if_neg fun hshared => hne hshared.2.1.symm]

theorem books_other (hi : VouchBooks p s.store.syndicates (poolHand p h))
    (he : vouchSyndicates.exec s signers op = some t) (hne : op.pool ≠ p) :
    VouchBooks p t.syndicates (poolHand p ((s, .call signers op) :: h)) := by
  obtain ⟨hpool, hterms⟩ := pool_other he hne
  rw [poolHand_other he hne]
  exact hi.congr hpool hterms

/-- A call that moves nothing and credits nothing. -/
theorem books_same (hi : VouchBooks p s.store.syndicates (poolHand p h))
    (he : vouchSyndicates.exec s signers op = some t) (hop : op.pool = p)
    (hcame : poolTakenBy p s op t + poolCreditedBy p s op t = 0) (hbank : t.bank = s.store.bank)
    (hpools : t.syndicates.syndicatePool = s.store.syndicates.syndicatePool)
    (hmembers : t.syndicates.syndicateMember = s.store.syndicates.syndicateMember) :
    VouchBooks p t.syndicates (poolHand p ((s, .call signers op) :: h)) := by
  rw [poolHand_own he hop hcame (by rw [hbank, add_zero]), add_zero, sub_zero]
  exact hi.congr (congrFun hpools p) (.of_eq (congrFun hmembers p))

/-- A call that pays out and leaves a pool in order. -/
theorem books_paid (he : vouchSyndicates.exec s signers op = some t) (hop : op.pool = p)
    (hcame : poolTakenBy p s op t + poolCreditedBy p s op t = 0) {paid : Int}
    (hout : Bank.outflow t.bank.log s.world.contract = Bank.outflow s.store.bank.log s.world.contract + paid)
    {pool : SyndicatePool}
    (hpools : t.syndicates.syndicatePool = update s.store.syndicates.syndicatePool p (some pool))
    (hbooks : PoolBooks t.syndicates p pool (poolHand p h - paid)) :
    VouchBooks p t.syndicates (poolHand p ((s, .call signers op) :: h)) := by
  rw [poolHand_own he hop hcame hout, add_zero]
  exact .of_stored hpools hbooks

/-- A call that goes through keeps the books of a pool whose creation its stake covers. -/
theorem books_call (hi : VouchBooks p s.store.syndicates (poolHand p h)) (hok : CreatesCovered p s op)
    (he : vouchSyndicates.exec s signers op = some t) :
    VouchBooks p t.syndicates (poolHand p ((s, .call signers op) :: h)) := by
  by_cases hop : op.pool = p
  swap
  · exact books_other hi he hop
  cases vouchSyndicateEffect_of he with
  | @created creator p' token contributions pool hnone hne hpos hlisted htotal hpending hactive hpools hrecords hout
      hin =>
    obtain rfl : p' = p := hop
    obtain ⟨hhand, hempty⟩ := hi.absent hnone
    have hcame : poolTakenBy p' s (.createVouchSyndicate creator p' token contributions) t +
        poolCreditedBy p' s (.createVouchSyndicate creator p' token contributions) t = pool.totalStake := by
      show (if p' = p' then _ else 0) + 0 = _
      rw [if_pos rfl, hin]
      omega
    rw [poolHand_own (p := p') he rfl hcame (by rw [hout, add_zero]), hhand, zero_add, sub_zero]
    refine .of_stored hpools (books_created hne hpos hlisted htotal hpending hactive (fun a => ?_) (hok rfl))
    exact (hrecords p' a).trans ((if_pos rfl).trans (by rw [hempty a]))
  | @credited p' amount pool hstored hactive hpos ht =>
    obtain rfl : p' = p := hop
    have hcame : poolTakenBy p' s (.creditSyndicateReward p' amount) t +
        poolCreditedBy p' s (.creditSyndicateReward p' amount) t = amount := by
      show 0 + (if p' = p' then amount else 0) = _
      rw [if_pos rfl, zero_add]
    rw [poolHand_own (p := p') he rfl hcame (by rw [ht, add_zero]), sub_zero]
    have hpools : t.syndicates.syndicatePool = update s.store.syndicates.syndicatePool p' (some { pool with
        pendingRewards := pool.pendingRewards + amount }) := by
      rw [ht]
      rfl
    have hmembers : t.syndicates.syndicateMember = s.store.syndicates.syndicateMember := by
      rw [ht]
      rfl
    exact .of_stored hpools (((hi.present pool hstored).credited hactive hpos).sameTerms
      (.of_eq (congrFun hmembers p')))
  | slashed perf ht => exact books_same hi he hop rfl (by rw [ht]) (by rw [ht]; rfl) (by rw [ht]; rfl)
  | nothingPending ht => exact books_same hi he hop rfl (by rw [ht]) (by rw [ht]) (by rw [ht])
  | @distributed p' pool hstored hactive hpending hpools hterms hout =>
    obtain rfl : p' = p := hop
    have hbooks := (hi.present pool hstored).distributed hactive hpending rfl
    exact books_paid he rfl rfl hout hpools (hbooks.sameTerms (hterms p'))
  | proposed hbank hpools hmembers => exact books_same hi he hop rfl hbank hpools hmembers
  | voted hbank hpools hmembers => exact books_same hi he hop rfl hbank hpools hmembers
  | @dissolved p' id pool hstored hactive hpools hmembers hout =>
    obtain rfl : p' = p := hop
    have hbooks := (hi.present pool hstored).dissolve hactive rfl
    exact books_paid he rfl rfl hout hpools (hbooks.sameTerms (.of_eq (congrFun hmembers p')))
  | @left p' member pool returned hstored hsome hreturned hremains hpools hmembers hout =>
    obtain rfl : p' = p := hop
    refine books_paid he rfl rfl hout hpools ((hi.present pool hstored).left hsome hreturned hremains fun a => ?_)
    simpa using hmembers p' a

end

section

variable {world : World} {bank : Ledger} {p : Nat} {h : VouchSyndicateHistory} {s : Situated World VouchSyndicateStore}

theorem vouchBooks_run (hr : Run vouchSyndicates.Step (vouchSyndicateStart world bank) h s)
    (hok : Along (vouchSyndicates.WhenDone (CreatesCovered p)) h) : VouchBooks p s.store.syndicates (poolHand p h) := by
  refine Component.inv_throughout (I := fun h s => VouchBooks p s.store.syndicates (poolHand p h)) ?_ ?_ ?_ hr
    hok.throughout
  · exact ⟨fun _ => ⟨rfl, fun _ => rfl⟩, fun pool hsome => by cases hsome⟩
  · intro h s signers op t _ hi hcovered he
    exact books_call hi hcovered he
  · intro h s e s' hi hnone hsame
    have hstore : s'.store.syndicates = s.store.syndicates := by
      rcases hsame with rfl | ⟨-, -, hsame⟩
      · rfl
      · exact hsame
    rw [hstore, poolHand_idle hnone]
    exact hi

/-- Throughout a run in which the pool's stake covers its records from the start, no more
goes out for the pool than came in, and its members' shares are of one whole. -/
theorem vouch_syndicate_solvent (hr : Run vouchSyndicates.Step (vouchSyndicateStart world bank) h s)
    (hok : Along (vouchSyndicates.WhenDone (CreatesCovered p)) h) : PoolSolvent p h s := by
  have hbooks := vouchBooks_run hr hok
  have hhand : 0 ≤ poolHand p h := by
    cases hpool : s.store.syndicates.syndicatePool p with
    | none => exact (hbooks.absent hpool).1.ge
    | some pool => exact (hbooks.present pool hpool).inHand
  refine ⟨?_, fun pool hpool => (hbooks.present pool hpool).shares⟩
  unfold poolHand at hhand
  omega

end

/-- Rewards are shared out, one member leaves, and the others dissolve the pool. -/
def poolDissolved : List (List Address × VouchSyndicateOp) :=
  [([2, 3, 4], .createVouchSyndicate 2 1 100 [⟨2, 300⟩, ⟨3, 500⟩, ⟨4, 200⟩]), ([], .creditSyndicateReward 1 99),
    ([], .distributeSyndicateRewards 1), ([2], .leaveSyndicate 1 2), ([3], .proposeSyndicateAction 1 3 "dissolve"),
    ([3], .voteSyndicateProposal 1 1 3 true), ([], .executeSyndicateProposal 1 1)]

theorem vouch_syndicate_dissolved :
    ∃ h s, Run vouchSyndicates.Step (vouchSyndicateStart sampleWorld sampleBank) h s ∧ PoolSolvent 1 h s ∧
      poolTaken 1 h = 1000 ∧ poolCredited 1 h = 99 ∧ poolPaid 1 h = 1097 := by
  have hr := vouchSyndicates.run_play (.nil : Run _ (vouchSyndicateStart sampleWorld sampleBank) [] _) poolDissolved
  exact ⟨_, _, hr, vouch_syndicate_solvent hr (by decide +kernel), by decide +kernel, by decide +kernel,
    by decide +kernel⟩

/-- A member listed twice has one record, of the later amount, and is paid it twice. -/
theorem vouch_syndicate_insolvent :
    ¬ ∀ world bank p h s, Run vouchSyndicates.Step (vouchSyndicateStart world bank) h s → PoolSolvent p h s := by
  intro hclaim
  have hr := vouchSyndicates.run_play (.nil : Run _ (vouchSyndicateStart sampleWorld sampleBank) [] _)
    [([2], .createVouchSyndicate 2 1 100 [⟨2, 10⟩, ⟨2, 90⟩]), ([2], .proposeSyndicateAction 1 2 "dissolve"),
      ([2], .voteSyndicateProposal 1 1 2 true), ([], .executeSyndicateProposal 1 1)]
  have hsolvent := hclaim _ _ 1 _ _ hr
  exact absurd hsolvent.1 (by decide +kernel)

end QuorumCredit
