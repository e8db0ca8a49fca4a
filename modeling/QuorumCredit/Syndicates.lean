import QuorumCredit.Syndication
import QuorumCredit.Host.Saturating
import Mathlib.Algebra.Order.BigOperators.Group.List
import Mathlib.Data.List.Nodup
/-!
# The books of a syndicate

What each call does to the record of a syndicate, and what the record keeps in
every run: distinct members, at most so many and with at most the whole share, and
the count of their approvals. Its totals are those of the members unless they
saturate, and it is ready exactly if it is quorate unless it becomes quorate by a
join or a departure, which do not look.
-/

open Host Function

namespace QuorumCredit

/-! ## What a call does -/

/-- The transfer of a positive amount, or none. -/
def transferOf (token src dst : Address) (amount : Int) : List (Transfer Address Address) :=
  if 0 < amount then [{ token, src, dst, amount }] else []

def refunds (token contract : Address) (members : List SyndicationMember) : List (Transfer Address Address) :=
  members.flatMap fun m => transferOf token contract m.address m.stake

def newSyndication (id : Nat) (token : Address) (purpose : String) (total : Int) (now : Nat) : LoanSyndication :=
  { syndicationId := id, loanId := none, members := [], totalAmount := total, totalCollateral := 0
    totalVouchStake := 0, loanPurpose := purpose, tokenAddress := token, createdAt := now, disbursedAt := none
    status := .forming, minApprovals := 0, approvalCount := 0 }

/-- What a call that goes through found and did. -/
inductive SyndicationEffect (w : World) (s t : SyndicationStore) : SyndicationOp → Prop
  | created {creator purpose token total} : 0 < total →
      t = { s with
        syndications :=
          { s.syndications with syndicationCounter := s.syndications.syndicationCounter + 1 }.saveSyndication
            (newSyndication (s.syndications.syndicationCounter + 1) token purpose total w.now) } →
      SyndicationEffect w s t (.createSyndication creator purpose token total)
  | joined {id member role share c v y} (now) : member ≠ w.contract →
      s.syndications.loanSyndication id = some y → y.status = .forming → 0 ≤ c → 0 ≤ v → 0 < share → share ≤ 10000 →
      s.syndications.syndicationMember id member = none → y.members.length < s.syndications.config.maxMembers →
      min u32Max (y.totalShare + share) ≤ 10000 →
      t = { bank := s.bank.moves (transferOf y.tokenAddress member w.contract (satI128 (c + v)))
            syndications := (s.syndications.setMember id member
              (some ⟨member, role, share, c, v, false, now⟩)).saveSyndication
              (y.joinedBy s.syndications.config ⟨member, role, share, c, v, false, now⟩) } →
      SyndicationEffect w s t (.joinSyndication id member role share c v)
  | reapproved {id member} : t = s → SyndicationEffect w s t (.approveSyndication id member)
  | approved {id member y before after} (m : SyndicationMember) : s.syndications.loanSyndication id = some y →
      y.status = .forming → y.members = before ++ m :: after → m.address = member → m.approved = false →
      t = { s with
        syndications := (s.syndications.setMember id member (some { m with approved := true })).saveSyndication
          (y.approvedBy s.syndications.config before.length { m with approved := true }) } →
      SyndicationEffect w s t (.approveSyndication id member)
  | left {id member y before after} (m : SyndicationMember) : s.syndications.loanSyndication id = some y →
      y.status = .forming ∨ y.status = .ready → y.members = before ++ m :: after → m.address = member →
      t = { bank := s.bank.moves (transferOf y.tokenAddress w.contract member m.stake)
            syndications := (s.syndications.setMember id member none).saveSyndication
              (y.leftBy s.syndications.config before.length m) } →
      SyndicationEffect w s t (.leaveSyndication id member)
  | cancelled {id caller y} : s.syndications.loanSyndication id = some y → y.status = .forming ∨ y.status = .ready →
      t = { bank := s.bank.moves (if 0 < satI128 (y.totalCollateral + y.totalVouchStake)
              then refunds y.tokenAddress w.contract y.members else [])
            syndications := s.syndications.saveSyndication { y with status := .cancelled } } →
      SyndicationEffect w s t (.cancelSyndication id caller)
  | requested {id lead y} (now) : s.syndications.loanSyndication id = some y → y.status = .ready →
      0 ≤ y.totalAmount → y.totalAmount ≤ y.committedStake →
      t = { bank := s.bank.move y.tokenAddress w.contract lead y.totalAmount
            syndications := s.syndications.saveSyndication
              { y with status := .active, disbursedAt := some now, loanId := some id } } →
      SyndicationEffect w s t (.requestSyndicationLoan id lead)
  | repaid {id repayer amount y} (repayment : SyndicationRepayment) : 0 < amount → repayment.amount = amount →
      s.syndications.loanSyndication id = some y → y.status = .active →
      (s.syndications.addRepayment id repayment).totalRepaid id < y.totalAmount →
      t = { bank := s.bank.move y.tokenAddress repayer w.contract amount
            syndications := s.syndications.addRepayment id repayment } →
      SyndicationEffect w s t (.repaySyndicationLoan id repayer amount)
  | repaidInFull {id repayer amount y} (repayment : SyndicationRepayment) : 0 < amount → repayment.amount = amount →
      s.syndications.loanSyndication id = some y → y.status = .active →
      y.totalAmount ≤ (s.syndications.addRepayment id repayment).totalRepaid id →
      t = { bank := s.bank.move y.tokenAddress repayer w.contract amount
            syndications := (s.syndications.addRepayment id repayment).saveSyndication { y with status := .repaid } } →
      SyndicationEffect w s t (.repaySyndicationLoan id repayer amount)
  | defaulted {id caller y shortfall} : s.syndications.loanSyndication id = some y → y.status = .active →
      shortfall = satI128 (y.totalAmount - s.syndications.totalRepaid id) → 0 < shortfall → 0 < y.committedStake →
      t = { s with
        syndications := (chargeRecords id shortfall y.committedStake y.members s.syndications).saveSyndication
          (y.defaultedWith shortfall) } →
      SyndicationEffect w s t (.handleSyndicationDefault id caller)
  | defaultedEmpty {id caller y} : s.syndications.loanSyndication id = some y → y.status = .active →
      ¬ 0 < y.committedStake →
      t = { s with syndications := s.syndications.saveSyndication { y with status := .defaulted } } →
      SyndicationEffect w s t (.handleSyndicationDefault id caller)

theorem LoanSyndication.position_split {y : LoanSyndication} {member : Address} {idx : Nat} {m : SyndicationMember}
    (hidx : y.position member = some idx) (hm : y.members[idx]? = some m) :
    ∃ before after, y.members = before ++ m :: after ∧ idx = before.length ∧ m.address = member := by
  obtain ⟨hlt, hpos, -⟩ := List.findIdx?_eq_some_iff_getElem.1 hidx
  rw [List.getElem?_eq_getElem hlt] at hm
  cases hm
  refine ⟨y.members.take idx, y.members.drop (idx + 1), ?_, ?_, of_decide_eq_true hpos⟩
  · rw [← List.drop_eq_getElem_cons hlt, List.take_append_drop]
  · rw [List.length_take, min_eq_left hlt.le]

section

variable {ctx : Context}

theorem yields_loadSyndication (id : Nat) (g : Syndications) (Q : LoanSyndication → Syndications → Prop) :
    Yields (loadSyndication id) ctx g Q ↔ ∀ y, g.loanSyndication id = some y → Q y g := by
  simp [loadSyndication]

theorem yields_refundMembers (token : Address) (members : List SyndicationMember) (b : Ledger) :
    Yields (refundMembers token members) ctx b fun _ b' => b' = b.moves (refunds token ctx.contract members) := by
  induction members generalizing b with
  | nil => simp [refundMembers, refunds]
  | cons m ms ih =>
    simp only [refundMembers, yields_bind, yields_ite, yields_pay]
    refine ⟨fun hpos _ _ => (ih _).mono fun _ b' hb => ?_, fun hpos => (ih _).mono fun _ b' hb => ?_⟩
    · rw [hb, refunds, refunds, List.flatMap_cons, Bank.moves_append, transferOf, if_pos hpos]
      rfl
    · rw [hb, refunds, refunds, List.flatMap_cons, transferOf, if_neg hpos, List.nil_append]

theorem yields_syndicationOp (op : SyndicationOp) (s : SyndicationStore) :
    Yields op.run ctx s fun _ t => SyndicationEffect ctx.toWorld s t op := by
  cases op with
  | createSyndication creator purpose token total =>
    simp only [SyndicationOp.run, discard, createSyndication, onSyndications, yields_steps, yields_requireAuth,
      yields_requireAllowedToken, yields_u64, yields_parts]
    exact fun _ hpos _ _ _ => .created hpos rfl
  | joinSyndication id member role share c v =>
    simp only [SyndicationOp.run, joinSyndication, onSyndications, yields_steps, yields_requireAuth,
      yields_requireAllowedToken, yields_loadSyndication, yields_ite, yields_collect, yields_parts]
    intro hauth y hy hforming hamounts hshare hnew hroom hshares _
    refine ⟨fun hpos _ _ => ?_, fun hpos => ?_⟩
    · refine .joined ctx.now hauth.2 hy hforming hamounts.1 hamounts.2 hshare.1 hshare.2 hnew hroom hshares ?_
      rw [transferOf, if_pos hpos]
      rfl
    · refine .joined ctx.now hauth.2 hy hforming hamounts.1 hamounts.2 hshare.1 hshare.2 hnew hroom hshares ?_
      rw [transferOf, if_neg hpos]
      rfl
  | approveSyndication id member =>
    simp only [SyndicationOp.run, approveSyndication, onSyndications, yields_steps, yields_requireAuth,
      yields_loadSyndication, yields_ite, yields_parts]
    intro _ y hy hforming idx hidx m hm
    obtain ⟨before, after, hmembers, rfl, haddress⟩ := LoanSyndication.position_split hidx hm
    refine ⟨fun _ => .reapproved rfl, fun hnew => ?_⟩
    exact .approved m hy hforming hmembers haddress (Bool.eq_false_of_not_eq_true hnew) rfl
  | leaveSyndication id member =>
    simp only [SyndicationOp.run, leaveSyndication, onSyndications, yields_steps, yields_requireAuth,
      yields_requireAllowedToken, yields_loadSyndication, yields_ite, yields_pay, yields_parts]
    intro _ y hy hstatus idx hidx m hm
    obtain ⟨before, after, hmembers, rfl, haddress⟩ := LoanSyndication.position_split hidx hm
    refine ⟨fun hpos _ _ _ => ?_, fun hpos => ?_⟩
    · refine .left m hy hstatus hmembers haddress ?_
      rw [transferOf, if_pos hpos]
      rfl
    · refine .left m hy hstatus hmembers haddress ?_
      rw [transferOf, if_neg hpos]
      rfl
  | cancelSyndication id caller =>
    simp only [SyndicationOp.run, cancelSyndication, onSyndications, yields_steps, yields_requireAuth,
      yields_requireAllowedToken, yields_loadSyndication, yields_ite, yields_parts]
    intro _ y hy hstatus _
    refine ⟨fun hpos _ => (yields_refundMembers _ _ _).mono fun _ bank hbank => ?_, fun hpos => ?_⟩
    · refine .cancelled hy hstatus ?_
      rw [if_pos hpos, hbank]
      rfl
    · refine .cancelled hy hstatus ?_
      rw [if_neg hpos]
      rfl
  | requestSyndicationLoan id lead =>
    simp only [SyndicationOp.run, discard, requestSyndicationLoan, onSyndications, yields_steps, yields_requireAuth,
      yields_requireAllowedToken, yields_loadSyndication, yields_pay, yields_parts]
    exact fun _ y hy hready _ _ hstake _ hpos _ => .requested ctx.now hy hready hpos hstake rfl
  | repaySyndicationLoan id repayer amount =>
    simp only [SyndicationOp.run, repaySyndicationLoan, onSyndications, yields_steps, yields_requireAuth,
      yields_requireAllowedToken, yields_loadSyndication, yields_collect, yields_u64, yields_ite, yields_parts]
    intro _ hpos y hy hactive _ _ _ _
    refine ⟨fun hdone => ?_, fun hopen => ?_⟩
    · exact .repaidInFull ⟨id, repayer, amount, ctx.now⟩ hpos rfl hy hactive hdone rfl
    · exact .repaid ⟨id, repayer, amount, ctx.now⟩ hpos rfl hy hactive (not_le.1 hopen) rfl
  | handleSyndicationDefault id caller =>
    simp only [SyndicationOp.run, handleSyndicationDefault, onSyndications, yields_steps, yields_requireAuth,
      yields_loadSyndication, yields_ite, yields_parts]
    intro _ y hy hactive hshort
    exact ⟨fun hstake => .defaulted hy hactive rfl hshort hstake rfl, fun hnone => .defaultedEmpty hy hactive hnone rfl⟩

end

theorem syndicationEffect_of {s : Situated World SyndicationStore} {signers : List Address} {op : SyndicationOp}
    {t : SyndicationStore} (he : syndicates.exec s signers op = some t) : SyndicationEffect s.world s.store t op :=
  Component.exec_yields (Q := fun t => SyndicationEffect s.world s.store t op) (yields_syndicationOp op s.store) he

/-! ## What every record keeps -/

/-- What holds of a record whatever the calls. -/
structure LoanSyndication.Formed (y : LoanSyndication) (cfg : SyndicationConfig) : Prop where
  distinct : (y.members.map (·.address)).Nodup
  nonneg : ∀ m ∈ y.members, 0 ≤ m.collateral ∧ 0 ≤ m.vouchStake
  room : y.members.length ≤ cfg.maxMembers
  shares : (y.members.map (·.shareBps)).sum ≤ 10000
  approvals : y.approvalCount = y.members.countP (·.approved)
  required : y.minApprovals = requiredApprovals y.members.length cfg.minApprovalPercentage
  collateralFits : FitsI128 y.totalCollateral
  vouchStakeFits : FitsI128 y.totalVouchStake

theorem foldl_share (members : List SyndicationMember) {acc : Nat} (hacc : acc ≤ u32Max) :
    members.foldl (fun acc m => min u32Max (acc + m.shareBps)) acc =
      min u32Max (acc + (members.map (·.shareBps)).sum) := by
  induction members generalizing acc with
  | nil => simp [hacc]
  | cons m ms ih =>
    rw [List.foldl_cons, ih (min_le_left _ _), List.map_cons, List.sum_cons]
    omega

theorem LoanSyndication.totalShare_eq (y : LoanSyndication) :
    y.totalShare = min u32Max (y.members.map (·.shareBps)).sum := by
  rw [totalShare, foldl_share _ (Nat.zero_le _), zero_add]

section

variable {y : LoanSyndication} {cfg : SyndicationConfig}

theorem formed_new (id : Nat) (token : Address) (purpose : String) (total : Int) (now : Nat) :
    (newSyndication id token purpose total now).Formed cfg := by
  refine ⟨List.nodup_nil, List.forall_mem_nil _, Nat.zero_le _, Nat.zero_le _, rfl, ?_, ?_, ?_⟩
  · simp [newSyndication, requiredApprovals]
  · show FitsI128 0
    decide
  · show FitsI128 0
    decide

variable {m : SyndicationMember}

theorem LoanSyndication.Formed.joinedBy (h : y.Formed cfg) (hnew : ∀ m' ∈ y.members, m'.address ≠ m.address)
    (hc : 0 ≤ m.collateral) (hv : 0 ≤ m.vouchStake) (hroom : y.members.length < cfg.maxMembers)
    (hshare : min u32Max (y.totalShare + m.shareBps) ≤ 10000) (happroved : m.approved = false) :
    (y.joinedBy cfg m).Formed cfg := by
  refine ⟨?_, ?_, ?_, ?_, ?_, rfl, fits_satI128 _, fits_satI128 _⟩
  · show ((y.members ++ [m]).map (·.address)).Nodup
    rw [List.map_append, List.nodup_append]
    refine ⟨h.distinct, by simp, ?_⟩
    intro a ha b hb
    obtain ⟨m', hm', rfl⟩ := List.mem_map.1 ha
    rw [List.mem_singleton.1 hb]
    exact hnew m' hm'
  · exact List.forall_mem_append.2 ⟨h.nonneg, List.forall_mem_singleton.2 ⟨hc, hv⟩⟩
  · show (y.members ++ [m]).length ≤ cfg.maxMembers
    rw [List.length_append, List.length_singleton]
    omega
  · show ((y.members ++ [m]).map (·.shareBps)).sum ≤ 10000
    have hsum := h.shares
    rw [LoanSyndication.totalShare_eq] at hshare
    unfold u32Max at hshare
    rw [List.map_append, List.sum_append, List.map_singleton, List.sum_singleton]
    omega
  · show y.approvalCount = (y.members ++ [m]).countP (·.approved)
    rw [List.countP_append, h.approvals]
    simp [happroved]

theorem LoanSyndication.Formed.approvedBy (h : y.Formed cfg) (hcfg : cfg.Valid)
    {before after : List SyndicationMember} (hmembers : y.members = before ++ m :: after) (hnew : m.approved = false) :
    (y.approvedBy cfg before.length { m with approved := true }).Formed cfg := by
  have hset : y.members.set before.length { m with approved := true } =
      before ++ { m with approved := true } :: after := by
    rw [hmembers, List.set_append_right _ _ le_rfl, Nat.sub_self, List.set_cons_zero]
  have hlen : (before ++ { m with approved := true } :: after).length = y.members.length := by
    rw [hmembers, List.length_append, List.length_append, List.length_cons, List.length_cons]
  have hcount : min u32Max (y.approvalCount + 1) =
      (before ++ { m with approved := true } :: after).countP (·.approved) := by
    have hle := List.countP_le_length (p := fun m : SyndicationMember => m.approved)
      (l := before ++ { m with approved := true } :: after)
    have hroom := h.room
    have hfits := hcfg.fits
    rw [hlen] at hle
    rw [h.approvals, hmembers] at *
    simp only [List.countP_append, List.countP_cons, hnew, Bool.false_eq_true, if_false, if_true] at hle ⊢
    omega
  obtain ⟨hdistinct, hnonneg, hroom, hshares, -, -, hcf, hvf⟩ := h
  unfold LoanSyndication.approvedBy LoanSyndication.withApproval LoanSyndication.withMembers
  rw [hset]
  refine ⟨?_, ?_, ?_, ?_, hcount, rfl, hcf, hvf⟩
  · rw [hmembers] at hdistinct
    simpa using hdistinct
  · rw [hmembers] at hnonneg
    simpa [or_imp, forall_and] using hnonneg
  · show (before ++ { m with approved := true } :: after).length ≤ cfg.maxMembers
    rw [hlen]
    exact hroom
  · rw [hmembers] at hshares
    simpa using hshares

theorem LoanSyndication.Formed.leftBy (h : y.Formed cfg) {before after : List SyndicationMember}
    (hmembers : y.members = before ++ m :: after) : (y.leftBy cfg before.length m).Formed cfg := by
  have herase : y.members.eraseIdx before.length = before ++ after := by
    rw [hmembers, List.eraseIdx_append_of_length_le le_rfl, Nat.sub_self, List.eraseIdx_cons_zero]
  have hsub : (before ++ after).Sublist y.members := by
    rw [hmembers]
    exact (List.Sublist.refl before).append (List.sublist_cons_self m after)
  unfold LoanSyndication.leftBy LoanSyndication.without LoanSyndication.withMembers
  rw [herase]
  refine ⟨h.distinct.sublist (hsub.map _), fun m' hm' => h.nonneg m' (hsub.subset hm'), hsub.length_le.trans h.room,
    ?_, ?_, rfl, fits_satI128 _, fits_satI128 _⟩
  · have hshares := h.shares
    rw [hmembers] at hshares
    simp only [List.map_append, List.map_cons, List.sum_append, List.sum_cons] at hshares
    simp only [List.map_append, List.sum_append]
    omega
  · dsimp only
    rw [h.approvals, hmembers]
    simp only [List.countP_append, List.countP_cons]
    split <;> omega

/-! ## Losses -/

theorem satI128_le {x : Int} (h : 0 ≤ x) : satI128 x ≤ x := by
  rw [satI128_of_nonneg h]
  exact min_le_right _ _

theorem SyndicationMember.stake_nonneg (h : 0 ≤ m.collateral ∧ 0 ≤ m.vouchStake) : 0 ≤ m.stake :=
  satI128_nonneg (by omega)

theorem SyndicationMember.charge_bounds (h : 0 ≤ m.collateral ∧ 0 ≤ m.vouchStake) {loss : Int} (hloss : 0 ≤ loss) :
    (0 ≤ (m.charge loss).collateral ∧ 0 ≤ (m.charge loss).vouchStake) ∧
      (m.charge loss).collateral ≤ m.collateral ∧ (m.charge loss).vouchStake ≤ m.vouchStake := by
  have hrest : 0 ≤ satI128 (loss - min loss m.vouchStake) := satI128_nonneg (by omega)
  have hvouch : 0 ≤ m.vouchStake - min loss m.vouchStake := by omega
  have hcollateral : 0 ≤ m.collateral - min (satI128 (loss - min loss m.vouchStake)) m.collateral := by omega
  refine ⟨⟨satI128_nonneg hcollateral, satI128_nonneg hvouch⟩, (satI128_le hcollateral).trans ?_,
    (satI128_le hvouch).trans ?_⟩
  · omega
  · omega

theorem SyndicationMember.defaulted_bounds (h : 0 ≤ m.collateral ∧ 0 ≤ m.vouchStake) (shortfall totalStake : Int) :
    (0 ≤ (m.defaulted shortfall totalStake).collateral ∧ 0 ≤ (m.defaulted shortfall totalStake).vouchStake) ∧
      (m.defaulted shortfall totalStake).collateral ≤ m.collateral ∧
        (m.defaulted shortfall totalStake).vouchStake ≤ m.vouchStake := by
  unfold SyndicationMember.defaulted
  split
  · exact charge_bounds h (le_max_right _ _)
  · exact ⟨h, le_rfl, le_rfl⟩

@[simp] theorem SyndicationMember.defaulted_address (m : SyndicationMember) (shortfall totalStake : Int) :
    (m.defaulted shortfall totalStake).address = m.address := by
  unfold SyndicationMember.defaulted SyndicationMember.charge
  split <;> rfl

@[simp] theorem SyndicationMember.defaulted_shareBps (m : SyndicationMember) (shortfall totalStake : Int) :
    (m.defaulted shortfall totalStake).shareBps = m.shareBps := by
  unfold SyndicationMember.defaulted SyndicationMember.charge
  split <;> rfl

@[simp] theorem SyndicationMember.defaulted_approved (m : SyndicationMember) (shortfall totalStake : Int) :
    (m.defaulted shortfall totalStake).approved = m.approved := by
  unfold SyndicationMember.defaulted SyndicationMember.charge
  split <;> rfl

theorem foldl_total (f : SyndicationMember → Int) {members : List SyndicationMember} (hf : ∀ m ∈ members, 0 ≤ f m) :
    members.foldl (fun acc m => satI128 (acc + f m)) 0 = satI128 (members.map f).sum := by
  have hfold := foldl_satI128 f hf le_rfl
  rwa [zero_add] at hfold

theorem LoanSyndication.Formed.defaultedWith (h : y.Formed cfg) (shortfall : Int) :
    (y.defaultedWith shortfall).Formed cfg := by
  have hnonneg : ∀ m ∈ y.members.map (·.defaulted shortfall y.committedStake),
      0 ≤ m.collateral ∧ 0 ≤ m.vouchStake :=
    List.forall_mem_map.2 fun m hm => (SyndicationMember.defaulted_bounds (h.nonneg m hm) _ _).1
  unfold LoanSyndication.defaultedWith
  refine ⟨?_, hnonneg, ?_, ?_, ?_, ?_, ?_, ?_⟩
  · simpa [Function.comp_def] using h.distinct
  · simpa using h.room
  · simpa [Function.comp_def] using h.shares
  · simpa [List.countP_map, Function.comp_def] using h.approvals
  · simpa using h.required
  · dsimp only
    rw [foldl_total _ fun m hm => (hnonneg m hm).1]
    exact fits_satI128 _
  · dsimp only
    rw [foldl_total _ fun m hm => (hnonneg m hm).2]
    exact fits_satI128 _

end

/-! ## The storage -/

/-- Every syndicate is stored under its id, well formed, and each of its members has a record. -/
structure Syndications.Registered (g : Syndications) (cfg : SyndicationConfig) : Prop where
  config : g.config = cfg
  under : ∀ {id y}, g.loanSyndication id = some y → y.syndicationId = id
  formed : ∀ {id y}, g.loanSyndication id = some y → y.Formed cfg
  keyed : ∀ {id y}, g.loanSyndication id = some y → ∀ m ∈ y.members, g.syndicationMember id m.address ≠ none

namespace Syndications.Registered

variable {g : Syndications} {cfg : SyndicationConfig}

theorem save (h : g.Registered cfg) {id : Nat} {y : LoanSyndication} (hid : y.syndicationId = id)
    (hformed : y.Formed cfg) (hkeyed : ∀ m ∈ y.members, g.syndicationMember id m.address ≠ none) :
    (g.saveSyndication y).Registered cfg := by
  subst hid
  have hcases : ∀ {id y'}, (g.saveSyndication y).loanSyndication id = some y' →
      (id = y.syndicationId ∧ y' = y) ∨ g.loanSyndication id = some y' := by
    intro id y' hy'
    dsimp only [saveSyndication] at hy'
    rw [update_apply] at hy'
    split at hy'
    case isTrue hid => exact .inl ⟨hid, (Option.some.inj hy').symm⟩
    case isFalse => exact .inr hy'
  refine ⟨h.config, fun hy' => ?_, fun hy' => ?_, fun hy' => ?_⟩
  · rcases hcases hy' with ⟨rfl, rfl⟩ | hold
    · rfl
    · exact h.under hold
  · rcases hcases hy' with ⟨rfl, rfl⟩ | hold
    · exact hformed
    · exact h.formed hold
  · rcases hcases hy' with ⟨rfl, rfl⟩ | hold
    · exact hkeyed
    · exact h.keyed hold

/-- The same members under another status. -/
theorem resave (h : g.Registered cfg) {id : Nat} {y y' : LoanSyndication} (hy : g.loanSyndication id = some y)
    (hid : y'.syndicationId = y.syndicationId) (hmembers : y'.members = y.members) (hformed : y'.Formed cfg) :
    (g.saveSyndication y').Registered cfg := by
  refine h.save (hid.trans (h.under hy)) hformed ?_
  rw [hmembers]
  exact h.keyed hy

theorem put (h : g.Registered cfg) (id : Nat) (a : Address) (m : SyndicationMember) :
    (g.setMember id a (some m)).Registered cfg := by
  refine ⟨h.config, h.under, h.formed, fun {id' y} hy m' hm' => ?_⟩
  have hkeyed := h.keyed hy m' hm'
  show update g.syndicationMember id (update (g.syndicationMember id) a (some m)) id' m'.address ≠ none
  by_cases hid : id' = id
  · subst hid
    rw [update_self]
    by_cases ha : m'.address = a
    · rw [ha, update_self]
      exact Option.some_ne_none m
    · rw [update_of_ne ha]
      exact hkeyed
  · rw [update_of_ne hid]
    exact hkeyed

theorem drop (h : g.Registered cfg) {id : Nat} {a : Address}
    (hgone : ∀ y, g.loanSyndication id = some y → ∀ m ∈ y.members, m.address ≠ a) :
    (g.setMember id a none).Registered cfg := by
  refine ⟨h.config, h.under, h.formed, fun {id' y} hy m' hm' => ?_⟩
  have hkeyed := h.keyed hy m' hm'
  show update g.syndicationMember id (update (g.syndicationMember id) a none) id' m'.address ≠ none
  by_cases hid : id' = id
  · subst hid
    rw [update_self, update_of_ne (hgone y hy m' hm')]
    exact hkeyed
  · rw [update_of_ne hid]
    exact hkeyed

theorem charge (h : g.Registered cfg) (id : Nat) (shortfall totalStake : Int) (members : List SyndicationMember) :
    (chargeRecords id shortfall totalStake members g).Registered cfg := by
  unfold chargeRecords
  induction members generalizing g with
  | nil => exact h
  | cons m ms ih =>
    rw [List.foldl_cons]
    apply ih
    split
    · exact h.put _ _ _
    · exact h

end Syndications.Registered

/-- Charging the members writes their own records alone. -/
theorem chargeRecords_keeps {β : Type} (read : Syndications → β)
    (hread : ∀ g id a m, read (Syndications.setMember g id a m) = read g) {id : Nat} {shortfall totalStake : Int}
    {members : List SyndicationMember} {g : Syndications} :
    read (chargeRecords id shortfall totalStake members g) = read g := by
  unfold chargeRecords
  induction members generalizing g with
  | nil => rfl
  | cons m ms ih =>
    rw [List.foldl_cons, ih]
    split
    · exact hread _ _ _ _
    · rfl

section

variable {y : LoanSyndication} {cfg : SyndicationConfig} {before after : List SyndicationMember} {m : SyndicationMember}

theorem members_approved (hmembers : y.members = before ++ m :: after) (m' : SyndicationMember) :
    (y.approvedBy cfg before.length m').members = before ++ m' :: after := by
  show y.members.set before.length m' = before ++ m' :: after
  rw [hmembers, List.set_append_right _ _ le_rfl, Nat.sub_self, List.set_cons_zero]

theorem members_left (hmembers : y.members = before ++ m :: after) :
    (y.leftBy cfg before.length m).members = before ++ after := by
  show y.members.eraseIdx before.length = before ++ after
  rw [hmembers, List.eraseIdx_append_of_length_le le_rfl, Nat.sub_self, List.eraseIdx_cons_zero]

theorem mem_of_left (hmembers : y.members = before ++ m :: after) {m' : SyndicationMember}
    (hm' : m' ∈ before ++ after) : m' ∈ y.members := by
  rw [hmembers]
  exact ((List.Sublist.refl before).append (List.sublist_cons_self m after)).subset hm'

/-- Whoever is in the list after an approval was in it before. -/
theorem mem_approved (hmembers : y.members = before ++ m :: after) {m' : SyndicationMember}
    (hm' : m' ∈ (y.approvedBy cfg before.length { m with approved := true }).members) :
    ∃ m₀ ∈ y.members, m₀.address = m'.address := by
  rw [members_approved hmembers] at hm'
  rw [hmembers]
  rcases List.mem_append.1 hm' with hb | ha
  · exact ⟨m', List.mem_append_left _ hb, rfl⟩
  · rcases List.mem_cons.1 ha with rfl | ha
    · exact ⟨m, List.mem_append_right _ List.mem_cons_self, rfl⟩
    · exact ⟨m', List.mem_append_right _ (List.mem_cons_of_mem _ ha), rfl⟩

theorem left_gone (hdistinct : (y.members.map (·.address)).Nodup) (hmembers : y.members = before ++ m :: after)
    {m' : SyndicationMember} (hm' : m' ∈ before ++ after) : m'.address ≠ m.address := by
  rw [hmembers, List.map_append, List.map_cons, List.perm_middle.nodup_iff, List.nodup_cons, ← List.map_append]
    at hdistinct
  intro heq
  rw [← heq] at hdistinct
  exact hdistinct.1 (List.mem_map_of_mem hm')

end

variable {cfg : SyndicationConfig}

theorem registered_call {s : Situated World SyndicationStore} {signers : List Address} {op : SyndicationOp}
    {t : SyndicationStore} (hcfg : cfg.Valid) (h : s.store.syndications.Registered cfg)
    (he : syndicates.exec s signers op = some t) : t.syndications.Registered cfg := by
  cases syndicationEffect_of he with
  | created hpos ht =>
    subst ht
    have hcounter : ({ s.store.syndications with
        syndicationCounter := s.store.syndications.syndicationCounter + 1 } : Syndications).Registered cfg :=
      ⟨h.config, h.under, h.formed, h.keyed⟩
    exact hcounter.save rfl (formed_new ..) (List.forall_mem_nil _)
  | @joined id member role share c v y now _ hy _ hc hv _ _ hnew hroom hshare ht =>
    subst ht
    have hid := h.under hy
    rw [h.config] at hroom ⊢
    have hput := h.put id member ⟨member, role, share, c, v, false, now⟩
    refine hput.save hid ((h.formed hy).joinedBy (fun m' hm' heq => ?_) hc hv hroom hshare rfl) ?_
    · exact h.keyed hy m' hm' (by rw [heq]; exact hnew)
    · refine List.forall_mem_append.2 ⟨hput.keyed hy, List.forall_mem_singleton.2 ?_⟩
      simp [Syndications.setMember]
  | reapproved ht =>
    subst ht
    exact h
  | @approved id member y before after m hy _ hmembers haddress hnew ht =>
    subst ht
    have hid := h.under hy
    rw [h.config]
    have hput := h.put id member { m with approved := true }
    refine hput.save hid ((h.formed hy).approvedBy hcfg hmembers hnew) fun m' hm' => ?_
    obtain ⟨m₀, hm₀, heq⟩ := mem_approved hmembers hm'
    rw [← heq]
    exact hput.keyed hy m₀ hm₀
  | @left id member y before after m hy _ hmembers haddress ht =>
    subst ht
    have hid := h.under hy
    rw [h.config]
    have hleft : (y.leftBy cfg before.length m).members = before ++ after := members_left hmembers
    have hsaved : (s.store.syndications.saveSyndication (y.leftBy cfg before.length m)).Registered cfg := by
      refine h.save hid ((h.formed hy).leftBy hmembers) fun m' hm' => ?_
      rw [hleft] at hm'
      exact h.keyed hy m' (mem_of_left hmembers hm')
    refine hsaved.drop fun y' hy' m' hm' heq => ?_
    rw [Syndications.saveSyndication, show (y.leftBy cfg before.length m).syndicationId = id from hid] at hy'
    cases (update_self ..).symm.trans hy'
    rw [hleft] at hm'
    exact left_gone (h.formed hy).distinct hmembers hm' (heq.trans haddress.symm)
  | cancelled hy _ ht =>
    subst ht
    exact h.resave hy rfl rfl { h.formed hy with }
  | requested now hy _ _ _ ht =>
    subst ht
    exact h.resave hy rfl rfl { h.formed hy with }
  | repaid repayment _ _ _ _ _ ht =>
    subst ht
    exact ⟨h.config, h.under, h.formed, h.keyed⟩
  | @repaidInFull id _ _ _ repayment _ _ hy _ _ ht =>
    subst ht
    have hadded : (s.store.syndications.addRepayment id repayment).Registered cfg :=
      ⟨h.config, h.under, h.formed, h.keyed⟩
    exact hadded.resave hy rfl rfl { h.formed hy with }
  | @defaulted id _ y shortfall hy _ _ _ _ ht =>
    subst ht
    have hid := h.under hy
    have hcharged := h.charge id shortfall y.committedStake y.members
    refine hcharged.save hid ((h.formed hy).defaultedWith shortfall) (List.forall_mem_map.2 fun m hm => ?_)
    rw [SyndicationMember.defaulted_address]
    exact hcharged.keyed (by rw [chargeRecords_keeps Syndications.loanSyndication fun _ _ _ _ => rfl]; exact hy) m hm
  | defaultedEmpty hy _ _ ht =>
    subst ht
    exact h.resave hy rfl rfl { h.formed hy with }

/-! ## Totals and readiness -/

/-- The record agrees with its members, and it is ready exactly if it is quorate. -/
structure LoanSyndication.Consistent (y : LoanSyndication) (cfg : SyndicationConfig) : Prop extends y.Formed cfg where
  collateral : y.totalCollateral = (y.members.map (·.collateral)).sum
  vouchStake : y.totalVouchStake = (y.members.map (·.vouchStake)).sum
  ready : y.status = .forming ∨ y.status = .ready → (y.status = .ready ↔ y.Quorate cfg)

def Syndications.Consistent (g : Syndications) : Prop :=
  ∀ id y, g.loanSyndication id = some y → y.Consistent g.config

/-- A join or a departure leaves a forming syndicate short of a minimum, and a join
leaves the totals in range. -/
def KeepsBooks (s : Situated World SyndicationStore) : SyndicationOp → Prop
  | .joinSyndication id _ _ _ c v => ∀ y ∈ s.store.syndications.loanSyndication id,
    (y.totalCollateral + c ≤ i128Max ∧ y.totalVouchStake + v ≤ i128Max) ∧
      ¬ (s.store.syndications.config.minMembers ≤ y.members.length + 1 ∧
        requiredApprovals (y.members.length + 1) s.store.syndications.config.minApprovalPercentage ≤ y.approvalCount)
  | .leaveSyndication id member => ∀ y ∈ s.store.syndications.loanSyndication id, y.status = .forming →
    ∀ m ∈ y.members, m.address = member →
      ¬ (s.store.syndications.config.minMembers ≤ y.members.length - 1 ∧
        requiredApprovals (y.members.length - 1) s.store.syndications.config.minApprovalPercentage ≤
          if m.approved = true then y.approvalCount - 1 else y.approvalCount)
  | _ => True

instance (s : Situated World SyndicationStore) (op : SyndicationOp) : Decidable (KeepsBooks s op) := by
  unfold KeepsBooks
  split <;> infer_instance

section

variable {y : LoanSyndication} {cfg : SyndicationConfig} {before after : List SyndicationMember} {m : SyndicationMember}

theorem satI128_eq_iff {x : Int} (h : 0 ≤ x) : satI128 x = x ↔ x ≤ i128Max := by
  rw [satI128_of_nonneg h]
  omega

theorem LoanSyndication.Consistent.totals_nonneg (h : y.Consistent cfg) :
    0 ≤ y.totalCollateral ∧ 0 ≤ y.totalVouchStake := by
  rw [h.collateral, h.vouchStake]
  exact ⟨List.sum_nonneg (List.forall_mem_map.2 fun m hm => (h.nonneg m hm).1),
    List.sum_nonneg (List.forall_mem_map.2 fun m hm => (h.nonneg m hm).2)⟩

theorem consistent_new (hcfg : cfg.Valid) (id : Nat) (token : Address) (purpose : String) (total : Int) (now : Nat) :
    (newSyndication id token purpose total now).Consistent cfg := by
  refine ⟨formed_new .., rfl, rfl, fun _ => iff_of_false ?_ ?_⟩
  · intro hready
    cases hready
  · rintro ⟨hmin, -⟩
    exact absurd hmin (Nat.not_le.2 hcfg.minMembers)

theorem consistent_joinedBy (h : y.Consistent cfg) (hforming : y.status = .forming)
    (hformed : (y.joinedBy cfg m).Formed cfg) (hc : 0 ≤ m.collateral) (hv : 0 ≤ m.vouchStake) :
    (y.joinedBy cfg m).Consistent cfg ↔
      (y.totalCollateral + m.collateral ≤ i128Max ∧ y.totalVouchStake + m.vouchStake ≤ i128Max) ∧
        ¬ (cfg.minMembers ≤ y.members.length + 1 ∧
          requiredApprovals (y.members.length + 1) cfg.minApprovalPercentage ≤ y.approvalCount) := by
  obtain ⟨htc, htv⟩ := h.totals_nonneg
  have hcollateral : ((y.members ++ [m]).map (·.collateral)).sum = y.totalCollateral + m.collateral := by
    rw [h.collateral]
    simp
  have hvouch : ((y.members ++ [m]).map (·.vouchStake)).sum = y.totalVouchStake + m.vouchStake := by
    rw [h.vouchStake]
    simp
  have hquorate : (y.joinedBy cfg m).Quorate cfg ↔ cfg.minMembers ≤ y.members.length + 1 ∧
      requiredApprovals (y.members.length + 1) cfg.minApprovalPercentage ≤ y.approvalCount := by
    simp [LoanSyndication.Quorate, LoanSyndication.joinedBy, LoanSyndication.withMembers]
  rw [← hquorate, ← satI128_eq_iff (add_nonneg htc hc), ← satI128_eq_iff (add_nonneg htv hv), ← hcollateral, ← hvouch]
  have hstatus : (y.joinedBy cfg m).status = .forming := hforming
  constructor
  · intro hafter
    have hready := hafter.ready (.inl hstatus)
    rw [hstatus] at hready
    refine ⟨⟨?_, ?_⟩, fun hq => ?_⟩
    · rw [hcollateral]
      exact hafter.collateral.trans hcollateral
    · rw [hvouch]
      exact hafter.vouchStake.trans hvouch
    · cases hready.2 hq
  · rintro ⟨⟨hct, hvt⟩, hnot⟩
    refine ⟨hformed, ?_, ?_, fun _ => iff_of_false ?_ hnot⟩
    · rw [hcollateral] at hct
      exact hct.trans hcollateral.symm
    · rw [hvouch] at hvt
      exact hvt.trans hvouch.symm
    · rw [hstatus]
      intro hready
      cases hready

theorem consistent_approvedBy (h : y.Consistent cfg) (hmembers : y.members = before ++ m :: after)
    (hforming : y.status = .forming)
      (hformed : (y.approvedBy cfg before.length { m with approved := true }).Formed cfg) :
    (y.approvedBy cfg before.length { m with approved := true }).Consistent cfg := by
  have hset : (y.approvedBy cfg before.length { m with approved := true }).members =
      before ++ { m with approved := true } :: after := members_approved hmembers _
  refine ⟨hformed, ?_, ?_, fun _ => ?_⟩
  · rw [hset]
    refine h.collateral.trans ?_
    simp [hmembers]
  · rw [hset]
    refine h.vouchStake.trans ?_
    simp [hmembers]
  · show (if (y.withApproval cfg before.length { m with approved := true }).Quorate cfg then .ready else y.status) =
      SyndicationStatus.ready ↔ (y.withApproval cfg before.length { m with approved := true }).Quorate cfg
    rw [hforming]
    split
    case isTrue hq => exact iff_of_true rfl hq
    case isFalse hnot => exact iff_of_false (fun hready => by cases hready) hnot

/-- Without one member's part, the sum is that of the others' parts. -/
theorem satI128_sum_others {part : SyndicationMember → Int} {total : Int}
    (hsum : total = ((before ++ m :: after).map part).sum) (hfits : FitsI128 total) (hm : 0 ≤ part m)
    (hrest : ∀ m' ∈ before ++ after, 0 ≤ part m') : satI128 (total - part m) = ((before ++ after).map part).sum := by
  have hothers : total = ((before ++ after).map part).sum + part m := by
    rw [hsum]
    simp only [List.map_append, List.map_cons, List.sum_append, List.sum_cons]
    omega
  have hpos : 0 ≤ ((before ++ after).map part).sum := List.sum_nonneg (List.forall_mem_map.2 hrest)
  have hmax := hfits.2
  rw [hothers, add_sub_cancel_right]
  exact (satI128_eq_iff hpos).2 (by omega)

theorem consistent_leftBy (h : y.Consistent cfg) (hmembers : y.members = before ++ m :: after)
    (hstatus : y.status = .forming ∨ y.status = .ready) (hformed : (y.leftBy cfg before.length m).Formed cfg) :
    (y.leftBy cfg before.length m).Consistent cfg ↔
      (y.status = .forming → ¬ (cfg.minMembers ≤ y.members.length - 1 ∧
        requiredApprovals (y.members.length - 1) cfg.minApprovalPercentage ≤
          if m.approved = true then y.approvalCount - 1 else y.approvalCount)) := by
  have hset : (y.leftBy cfg before.length m).members = before ++ after := members_left hmembers
  have hm := h.nonneg m (by rw [hmembers]; simp)
  have hlen : (before ++ after).length = y.members.length - 1 := by
    rw [hmembers, List.length_append, List.length_append, List.length_cons]
    omega
  have hrest : (∀ m' ∈ before ++ after, 0 ≤ m'.collateral) ∧ ∀ m' ∈ before ++ after, 0 ≤ m'.vouchStake :=
    ⟨fun m' hm' => (h.nonneg m' (mem_of_left hmembers hm')).1, fun m' hm' => (h.nonneg m' (mem_of_left hmembers hm')).2⟩
  have hcollateral : satI128 (y.totalCollateral - m.collateral) = ((before ++ after).map (·.collateral)).sum :=
    satI128_sum_others (h.collateral.trans (by rw [hmembers])) h.collateralFits hm.1 hrest.1
  have hvouch : satI128 (y.totalVouchStake - m.vouchStake) = ((before ++ after).map (·.vouchStake)).sum :=
    satI128_sum_others (h.vouchStake.trans (by rw [hmembers])) h.vouchStakeFits hm.2 hrest.2
  have hquorate : (y.without cfg before.length m).Quorate cfg ↔ cfg.minMembers ≤ y.members.length - 1 ∧
      requiredApprovals (y.members.length - 1) cfg.minApprovalPercentage ≤
        if m.approved = true then y.approvalCount - 1 else y.approvalCount := by
    have herase : y.members.eraseIdx before.length = before ++ after := hset
    rw [← hlen, ← herase]
    rfl
  have hafter : (y.leftBy cfg before.length m).status =
      if y.status = .ready ∧ ¬ (y.without cfg before.length m).Quorate cfg then .forming else y.status := rfl
  rw [← hquorate]
  constructor
  · intro hconsistent hforming hq
    have hready := hconsistent.ready (.inl (by rw [hafter, hforming]; simp))
    rw [hafter, hforming, if_neg (fun hboth => by cases hboth.1)] at hready
    cases hready.2 hq
  · intro hnot
    refine ⟨hformed, ?_, ?_, fun _ => ?_⟩
    · rw [hset]
      exact hcollateral
    · rw [hset]
      exact hvouch
    · show (y.leftBy cfg before.length m).status = .ready ↔ (y.without cfg before.length m).Quorate cfg
      rw [hafter]
      rcases hstatus with hforming | hready
      · rw [hforming, if_neg (fun hboth => by cases hboth.1)]
        exact iff_of_false (fun hready => by cases hready) (hnot hforming)
      · rw [hready]
        by_cases hq : (y.without cfg before.length m).Quorate cfg
        · rw [if_neg (fun hboth => hboth.2 hq)]
          exact iff_of_true rfl hq
        · rw [if_pos ⟨rfl, hq⟩]
          exact iff_of_false (fun hready => by cases hready) hq

theorem consistent_defaultedWith (h : y.Consistent cfg) (shortfall : Int) :
    (y.defaultedWith shortfall).Consistent cfg := by
  have hbounds : ∀ m ∈ y.members, _ := fun m hm =>
    SyndicationMember.defaulted_bounds (h.nonneg m hm) shortfall y.committedStake
  have hle : ((y.members.map (·.defaulted shortfall y.committedStake)).map (·.collateral)).sum ≤ y.totalCollateral ∧
      ((y.members.map (·.defaulted shortfall y.committedStake)).map (·.vouchStake)).sum ≤ y.totalVouchStake := by
    rw [h.collateral, h.vouchStake, List.map_map, List.map_map]
    exact ⟨List.sum_le_sum fun m hm => (hbounds m hm).2.1, List.sum_le_sum fun m hm => (hbounds m hm).2.2⟩
  have hnonneg := (h.toFormed.defaultedWith shortfall).nonneg
  have hpos := List.sum_nonneg (List.forall_mem_map.2 fun m hm => (hnonneg m hm).1)
  have hpos' := List.sum_nonneg (List.forall_mem_map.2 fun m hm => (hnonneg m hm).2)
  refine ⟨h.toFormed.defaultedWith shortfall, ?_, ?_, ?_⟩
  · refine (foldl_total _ fun m hm => (hnonneg m hm).1).trans ((satI128_eq_iff hpos).2 ?_)
    exact hle.1.trans h.collateralFits.2
  · refine (foldl_total _ fun m hm => (hnonneg m hm).2).trans ((satI128_eq_iff hpos').2 ?_)
    exact hle.2.trans h.vouchStakeFits.2
  · rintro (hforming | hready)
    · cases hforming
    · cases hready

end

/-! ## Every run -/

/-- Saving one record leaves the others consistent. -/
theorem consistent_save {g g₀ : Syndications} (h : g.Consistent) (hg₀ : g₀.loanSyndication = g.loanSyndication)
    (hconfig : g₀.syndicationConfig = g.syndicationConfig) (y' : LoanSyndication) :
    (g₀.saveSyndication y').Consistent ↔ y'.Consistent g.config := by
  have hcfg : (g₀.saveSyndication y').config = g.config := by
    show g₀.syndicationConfig.getD defaultSyndicationConfig = g.syndicationConfig.getD defaultSyndicationConfig
    rw [hconfig]
  constructor
  · intro hafter
    rw [← hcfg]
    exact hafter y'.syndicationId y' (update_self ..)
  · intro hy' id y hy
    rw [hcfg]
    dsimp only [Syndications.saveSyndication] at hy
    rw [hg₀, update_apply] at hy
    split at hy
    case isTrue =>
      cases hy
      exact hy'
    case isFalse => exact h id y hy

theorem formed_saved {g : Syndications} {y : LoanSyndication} (h : (g.saveSyndication y).Registered cfg) :
    y.Formed cfg :=
  h.formed (update_self ..)

/-- A condition on what is stored is one on the record found. -/
theorem forall_stored {g : Syndications} {id : Nat} {y : LoanSyndication} (hy : g.loanSyndication id = some y)
    {P : LoanSyndication → Prop} : (∀ y' ∈ g.loanSyndication id, P y') ↔ P y := by
  constructor
  · exact fun h => h y hy
  · intro hp y' hy'
    cases hy.symm.trans hy'
    exact hp

/-- In a list of distinct members, a condition on the member of that address. -/
theorem forall_member {members before after : List SyndicationMember} {m : SyndicationMember} {a : Address}
    (hdistinct : (members.map (·.address)).Nodup) (hmembers : members = before ++ m :: after) (ha : m.address = a)
    {P : SyndicationMember → Prop} : (∀ m' ∈ members, m'.address = a → P m') ↔ P m := by
  constructor
  · exact fun h => h m (by rw [hmembers]; simp) ha
  · intro hp m' hm' ha'
    rw [List.inj_on_of_nodup_map hdistinct hm' (by rw [hmembers]; simp) (ha'.trans ha.symm)]
    exact hp

theorem consistent_restatus {y y' : LoanSyndication} (h : y.Consistent cfg) (hformed : y'.Formed cfg)
    (hmembers : y'.members = y.members) (hcollateral : y'.totalCollateral = y.totalCollateral)
    (hvouch : y'.totalVouchStake = y.totalVouchStake) (hleft : ¬ (y'.status = .forming ∨ y'.status = .ready)) :
    y'.Consistent cfg := by
  refine ⟨hformed, ?_, ?_, fun hstatus => absurd hstatus hleft⟩
  · rw [hcollateral, hmembers]
    exact h.collateral
  · rw [hvouch, hmembers]
    exact h.vouchStake

theorem consistent_call {s : Situated World SyndicationStore} {signers : List Address} {op : SyndicationOp}
    {t : SyndicationStore} (hcfg : cfg.Valid) (hreg : s.store.syndications.Registered cfg)
    (h : s.store.syndications.Consistent) (he : syndicates.exec s signers op = some t) :
    t.syndications.Consistent ↔ KeepsBooks s op := by
  have hreg' := registered_call hcfg hreg he
  have hconfig := hreg.config
  subst hconfig
  cases syndicationEffect_of he with
  | created hpos ht =>
    subst ht
    refine iff_of_true ((consistent_save h ?_ ?_ _).2 (consistent_new hcfg ..)) trivial
    · rfl
    · rfl
  | joined now _ hy hforming hc hv _ _ _ _ _ ht =>
    subst ht
    rw [KeepsBooks, forall_stored hy]
    refine (consistent_save h ?_ ?_ _).trans (consistent_joinedBy (h _ _ hy) hforming (formed_saved hreg') hc hv)
    · rfl
    · rfl
  | reapproved ht =>
    subst ht
    exact iff_of_true h trivial
  | approved m hy hforming hmembers _ _ ht =>
    subst ht
    refine iff_of_true ((consistent_save h ?_ ?_ _).2 ?_) trivial
    · rfl
    · rfl
    · exact consistent_approvedBy (h _ _ hy) hmembers hforming (formed_saved hreg')
  | left m hy hstatus hmembers haddress ht =>
    subst ht
    have hformed : LoanSyndication.Formed _ _ := hreg'.formed (update_self ..)
    rw [KeepsBooks, forall_stored hy, forall_member (hreg.formed hy).distinct hmembers haddress]
    refine (consistent_save h ?_ ?_ _).trans (consistent_leftBy (h _ _ hy) hmembers hstatus hformed)
    · rfl
    · rfl
  | cancelled hy _ ht =>
    subst ht
    refine iff_of_true ((consistent_save h ?_ ?_ _).2 ?_) trivial
    · rfl
    · rfl
    · exact consistent_restatus (h _ _ hy) (formed_saved hreg') rfl rfl rfl (by simp)
  | requested now hy _ _ _ ht =>
    subst ht
    refine iff_of_true ((consistent_save h ?_ ?_ _).2 ?_) trivial
    · rfl
    · rfl
    · exact consistent_restatus (h _ _ hy) (formed_saved hreg') rfl rfl rfl (by simp)
  | repaid repayment _ _ _ _ _ ht =>
    subst ht
    exact iff_of_true h trivial
  | repaidInFull repayment _ _ hy _ _ ht =>
    subst ht
    refine iff_of_true ((consistent_save h ?_ ?_ _).2 ?_) trivial
    · rfl
    · rfl
    · exact consistent_restatus (h _ _ hy) (formed_saved hreg') rfl rfl rfl (by simp)
  | defaulted hy _ _ _ _ ht =>
    subst ht
    refine iff_of_true ((consistent_save h ?_ ?_ _).2 (consistent_defaultedWith (h _ _ hy) _)) trivial
    · exact chargeRecords_keeps Syndications.loanSyndication fun _ _ _ _ => rfl
    · exact chargeRecords_keeps Syndications.syndicationConfig fun _ _ _ _ => rfl
  | defaultedEmpty hy _ _ ht =>
    subst ht
    refine iff_of_true ((consistent_save h ?_ ?_ _).2 ?_) trivial
    · rfl
    · rfl
    · exact consistent_restatus (h _ _ hy) (formed_saved hreg') rfl rfl rfl (by simp)

section

variable {world : World} {bank : Ledger} {stored : Option SyndicationConfig} {h : SyndicationHistory}
  {s : Situated World SyndicationStore}

theorem registered_run (hcfg : (stored.getD defaultSyndicationConfig).Valid)
    (hr : Run syndicates.Step (syndicationStart world bank stored) h s) :
    s.store.syndications.Registered (stored.getD defaultSyndicationConfig) := by
  refine Component.always (I := fun x => x.syndications.Registered (stored.getD defaultSyndicationConfig)) ?_
    (fun hi he => registered_call hcfg hi he) ?_ hr
  · exact ⟨rfl, fun hy => (by cases hy), fun hy => (by cases hy), fun hy => (by cases hy)⟩
  · rintro w x w' x' hi ⟨-, -, hsame⟩
    rw [hsame]
    exact hi

/-- The books of every syndicate are in order throughout a run exactly if no join
saturates a total and no join or departure makes a forming syndicate quorate. -/
theorem syndicate_books_iff (hcfg : (stored.getD defaultSyndicationConfig).Valid)
    (hr : Run syndicates.Step (syndicationStart world bank stored) h s) :
    Always (fun _ s => s.store.syndications.Consistent) h s ↔ Along (syndicates.WhenDone KeepsBooks) h := by
  rw [along_iff_throughout]
  refine Component.always_iff ?_ (fun hr hp he => ?_) ?_ hr
  · rintro id y ⟨⟩
  · exact consistent_call hcfg (registered_run hcfg hr) hp he
  · intro h s e s' hp _ hsame
    rcases hsame with rfl | ⟨-, -, hsame⟩
    · exact hp
    · rw [hsame]
      exact hp

end

/-- Three members join a syndicate. -/
def threeJoined : List (List Address × SyndicationOp) :=
  [([2], .createSyndication 2 "shop" 100 1000), ([2], .joinSyndication 1 2 .leadBorrower 4000 400 0),
    ([3], .joinSyndication 1 3 .coBorrower 3000 400 0), ([4], .joinSyndication 1 4 .guarantor 3000 0 400)]

/-- All approve, and one leaves again. -/
def allApprove : List (List Address × SyndicationOp) :=
  threeJoined ++ [([2], .approveSyndication 1 2), ([3], .approveSyndication 1 3), ([4], .approveSyndication 1 4),
    ([4], .leaveSyndication 1 4)]

theorem syndicate_books_all_approve :
    (syndicates.play (syndicationStart sampleWorld sampleBank none) allApprove).store.syndications.Consistent ∧
      ((syndicates.play (syndicationStart sampleWorld sampleBank none) allApprove).store.syndications.loanSyndication
        1).map (fun y => (y.status, y.members.length, y.approvalCount, y.totalCollateral)) =
          some (.ready, 2, 2, 800) := by
  have hr := syndicates.run_play (.nil : Run _ (syndicationStart sampleWorld sampleBank none) [] _) allApprove
  have hvalid : ((none : Option SyndicationConfig).getD defaultSyndicationConfig).Valid :=
    defaultSyndicationConfig_valid
  have halways := (syndicate_books_iff hvalid hr).2 (by decide +kernel)
  exact ⟨halways.last, by decide +kernel⟩

/-- The one member that has not approved leaves: the others meet both minimums, and
the syndicate is still forming. -/
theorem syndicate_books_out_of_order :
    ¬ ∀ world bank stored h s, (stored.getD defaultSyndicationConfig).Valid →
      Run syndicates.Step (syndicationStart world bank stored) h s →
        Always (fun _ s => s.store.syndications.Consistent) h s := by
  intro hclaim
  have hr := syndicates.run_play (.nil : Run _ (syndicationStart sampleWorld sampleBank none) [] _)
    (threeJoined ++ [([2], .approveSyndication 1 2), ([3], .approveSyndication 1 3), ([4], .leaveSyndication 1 4)])
  have hconsistent := (hclaim _ _ none _ _ defaultSyndicationConfig_valid hr).last 1
  have hy : ((syndicates.play (syndicationStart sampleWorld sampleBank none) (threeJoined ++
      [([2], .approveSyndication 1 2), ([3], .approveSyndication 1 3),
        ([4], .leaveSyndication 1 4)])).store.syndications.loanSyndication
        1).any (fun y => y.status = .forming ∧ y.Quorate defaultSyndicationConfig) = true := by decide +kernel
  obtain ⟨y, hstored, hboth⟩ := (Option.any_eq_true _ _).1 hy
  obtain ⟨hforming, hquorate⟩ := of_decide_eq_true hboth
  have hready := ((hconsistent y hstored).ready (.inl hforming)).2 hquorate
  rw [hforming] at hready
  cases hready

end QuorumCredit
