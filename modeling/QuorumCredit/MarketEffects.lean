import QuorumCredit.PredictionMarket
import QuorumCredit.TreasurySpending
import QuorumCredit.Guards
/-!
# What the calls on a market do

A claim moves what the position is due: to the participant, and as a fee to the
treasury, in whatever token the call names.
-/

open Host Function

namespace QuorumCredit

/-- What a position is due when the market is over, before the fee. -/
def PredictionMarket.due (market : PredictionMarket) (position : MarketPosition) : Int :=
  if market.status = .cancelled then position.stake
  else if position.won market.outcome = true ∧ market.winningStake ≠ 0 then
    (position.stake * (market.totalYesStake + market.totalNoStake)).tdiv market.winningStake
  else 0

/-- The market after a stake on the side. -/
def PredictionMarket.staked (market : PredictionMarket) (side : PredictionSide) (stake : Int) : PredictionMarket :=
  match side with
  | .yes => { market with totalYesStake := market.totalYesStake + stake }
  | .no => { market with totalNoStake := market.totalNoStake + stake }

/-- What a call that goes through found and did. -/
inductive MarketEffect (w : World) (s t : MarketStore) : MarketOp → Prop
  | created {signers description threshold closesAt resolvesAt} {m : PredictionMarket} : m.totalYesStake = 0 →
      m.totalNoStake = 0 → m.status = .open →
      t.markets.predictionMarket =
        update s.markets.predictionMarket (s.markets.predictionMarketCounter + 1) (some m) →
      t.markets.predictionMarketCounter = s.markets.predictionMarketCounter + 1 →
      t.markets.marketPosition = s.markets.marketPosition →
      MarketEffect w s t (.createMarket signers description threshold closesAt resolvesAt)
  | placed {p id side stake token} {m : PredictionMarket} : s.markets.predictionMarket id = some m →
      m.status = .open → s.markets.marketPosition id p = none → 0 < stake →
      t.markets.predictionMarket = update s.markets.predictionMarket id (some (m.staked side stake)) →
      t.markets.predictionMarketCounter = s.markets.predictionMarketCounter →
      t.markets.marketPosition = update s.markets.marketPosition id (update (s.markets.marketPosition id) p
        (some { participant := p, side, stake, claimed := false })) →
      (∀ token', Bank.sent t.bank.log token' p w.contract =
        Bank.sent s.bank.log token' p w.contract + if token = token' then stake else 0) →
      MarketEffect w s t (.placePrediction p id side stake token)
  | resolved {signers id outcome} {m : PredictionMarket} : s.markets.predictionMarket id = some m →
      m.status ≠ .resolved → m.status ≠ .cancelled →
      t.markets.predictionMarket =
        update s.markets.predictionMarket id (some { m with outcome := some outcome, status := .resolved }) →
      t.markets.predictionMarketCounter = s.markets.predictionMarketCounter →
      t.markets.marketPosition = s.markets.marketPosition → MarketEffect w s t (.resolveMarket signers id outcome)
  | cancelled {signers id} {m : PredictionMarket} : s.markets.predictionMarket id = some m →
      m.status ≠ .resolved → m.status ≠ .cancelled →
      t.markets.predictionMarket = update s.markets.predictionMarket id (some { m with status := .cancelled }) →
      t.markets.predictionMarketCounter = s.markets.predictionMarketCounter →
      t.markets.marketPosition = s.markets.marketPosition → MarketEffect w s t (.cancelMarket signers id)
  | claimed {p id token} {m : PredictionMarket} {pos : MarketPosition} (net fee : Int) :
      s.markets.predictionMarket id = some m → m.status = .resolved ∨ m.status = .cancelled →
      s.markets.marketPosition id p = some pos → pos.claimed = false →
      t.markets.predictionMarket = s.markets.predictionMarket →
      t.markets.predictionMarketCounter = s.markets.predictionMarketCounter →
      t.markets.marketPosition = update s.markets.marketPosition id (update (s.markets.marketPosition id) p
        (some { pos with claimed := true })) →
      (0 ≤ m.due pos → 0 ≤ net ∧ 0 ≤ fee ∧ net + fee = m.due pos) →
      (∀ token', Bank.sent t.bank.log token' w.contract p =
        Bank.sent s.bank.log token' w.contract p + if token = token' then max net 0 else 0) →
      t.treasury.treasuryBalance = s.treasury.treasuryBalance + max fee 0 →
      MarketEffect w s t (.claimPayout p id token)

section

variable {ctx : Context}

theorem yields_updateAccuracy (p : Address) (correct : Bool) (won lost : Int) (g : Markets) :
    Yields (updateAccuracy p correct won lost) ctx g fun _ g' => ∃ r, g' = { g with predictionAccuracy := r } := by
  simp only [updateAccuracy, yields_steps, yields_u32, yields_i128]
  intro _ _ _ _
  exact ⟨_, rfl⟩

theorem yields_addStake (m : PredictionMarket) (side : PredictionSide) (stake : Int) (g : Markets) :
    Yields (addStake m side stake) ctx g fun m' g' => m' = m.staked side stake ∧ g' = g := by
  cases side <;> simp [addStake, PredictionMarket.staked]

/-- The fee is a part of what is due. -/
theorem fee_bounds {gross : Int} (hgross : 0 ≤ gross) :
    0 ≤ (gross * predictionMarketFeeBps).tdiv 10000 ∧ (gross * predictionMarketFeeBps).tdiv 10000 ≤ gross := by
  have hscaled : 0 ≤ gross * predictionMarketFeeBps := Int.mul_nonneg hgross (by decide)
  rw [Int.tdiv_eq_ediv_of_nonneg hscaled]
  simp only [predictionMarketFeeBps] at *
  omega

theorem yields_winnerPayout (m : PredictionMarket) (pos : MarketPosition) (c : CommunityTreasury)
    (hstatus : m.status ≠ .cancelled) (hwon : pos.won m.outcome = true) :
    Yields (winnerPayout m pos.stake) ctx c fun net c' => ∃ fee,
      (0 ≤ m.due pos → 0 ≤ net ∧ 0 ≤ fee ∧ net + fee = m.due pos) ∧
        c'.treasuryBalance = c.treasuryBalance + max fee 0 := by
  simp only [winnerPayout, yields_bind, yields_i128]
  intro _
  rw [yields_ite]
  constructor
  · intro hnone
    rw [yields_pure]
    refine ⟨0, fun _ => ⟨le_rfl, le_rfl, ?_⟩, by simp⟩
    rw [PredictionMarket.due, if_neg hstatus, if_neg fun h => h.2 hnone, add_zero]
  · intro hsome
    simp only [yields_bind, yields_i128, yields_divI128]
    intro _ _ _ _ _
    refine (yields_depositToTreasury _ _).mono ?_
    rintro _ _ ⟨r, rfl⟩
    rw [yields_pure]
    refine ⟨_, fun hdue => ?_, rfl⟩
    rw [PredictionMarket.due, if_neg hstatus, if_pos ⟨hwon, hsome⟩] at hdue ⊢
    obtain ⟨hfee, hle⟩ := fee_bounds hdue
    exact ⟨by omega, hfee, by omega⟩

theorem yields_payClaim {p : Address} {id : Nat} {token : Address} {pos : MarketPosition} {net : Int}
    {s : MarketStore} :
    Yields (payClaim p id token pos net) ctx s fun _ t =>
      t.markets.predictionMarket = s.markets.predictionMarket ∧
        t.markets.predictionMarketCounter = s.markets.predictionMarketCounter ∧
        t.markets.marketPosition = update s.markets.marketPosition id (update (s.markets.marketPosition id) p
          (some { pos with claimed := true })) ∧
        t.treasury = s.treasury ∧
        ∀ token', Bank.sent t.bank.log token' ctx.contract p =
          Bank.sent s.bank.log token' ctx.contract p + if token = token' then max net 0 else 0 := by
  simp only [payClaim, setPosition, sendPayout, lift_eq_zoom, lift_self, yields_bind, yields_zoom, yields_alter]
  rw [yields_ite]
  constructor
  · intro hpos
    rw [yields_pay]
    intro _ _
    refine (yields_updateAccuracy p true net 0 _).mono ?_
    rintro _ _ ⟨r, rfl⟩
    rw [yields_pure]
    refine ⟨rfl, rfl, rfl, rfl, fun token' => ?_⟩
    refine (Bank.sent_move ..).trans ?_
    rw [max_eq_left hpos.le, add_comm]
    simp only [and_true]
    rfl
  · intro hnone
    rw [yields_pure]
    refine (yields_updateAccuracy p true net 0 _).mono ?_
    rintro _ _ ⟨r, rfl⟩
    rw [yields_pure]
    refine ⟨rfl, rfl, rfl, rfl, fun token' => ?_⟩
    rw [max_eq_right (le_of_not_gt hnone), ite_self, add_zero]
    rfl

theorem yields_placePrediction (p : Address) (id : Nat) (side : PredictionSide) (stake : Int) (token : Address)
    (s : MarketStore) : Yields (placePrediction p id side stake token) ctx s fun _ t =>
      MarketEffect ctx.toWorld s t (.placePrediction p id side stake token) := by
  simp only [placePrediction, loadMarket, setPosition, saveMarket, yields_parts, yields_steps, yields_requireAuth,
    yields_collect]
  refine (yields_true _ _ _).mono fun _ access _ => ?_
  intro _ hstake m hm hopen _ hnew _ _
  refine (yields_addStake m side stake _).mono ?_
  rintro _ _ ⟨rfl, rfl⟩
  refine .placed hm hopen hnew hstake rfl rfl rfl fun token' => ?_
  refine (Bank.sent_move ..).trans ?_
  rw [add_comm]
  simp only [and_true]
  rfl

theorem yields_claimPayout (p : Address) (id : Nat) (token : Address) (s : MarketStore) :
    Yields (claimPayout p id token) ctx s fun _ t => MarketEffect ctx.toWorld s t (.claimPayout p id token) := by
  simp only [claimPayout, loadMarket, yields_parts, yields_steps, yields_requireAuth]
  intro _ m hm hover pos hpos hunclaimed
  rw [yields_ite]
  constructor
  · intro hcancelled
    refine yields_payClaim.mono ?_
    rintro _ t ⟨hmarket, hcounter, hposition, htreasury, hsent⟩
    refine .claimed pos.stake 0 hm hover hpos hunclaimed hmarket hcounter hposition ?_ hsent ?_
    · rw [PredictionMarket.due, if_pos hcancelled]
      exact fun hstake => ⟨hstake, le_rfl, add_zero _⟩
    · rw [htreasury, max_self, add_zero]
      rfl
  · intro hresolved
    rw [yields_ite]
    constructor
    · intro hwon
      simp only [yields_bind, yields_zoom]
      refine (yields_winnerPayout m pos _ hresolved hwon).mono ?_
      rintro net c ⟨fee, hdue, hbalance⟩
      refine yields_payClaim.mono ?_
      rintro _ t ⟨hmarket, hcounter, hposition, htreasury, hsent⟩
      refine .claimed net fee hm hover hpos hunclaimed hmarket hcounter hposition hdue hsent ?_
      rw [htreasury]
      exact hbalance
    · intro hlost
      simp only [setPosition, yields_steps, yields_zoom]
      refine (yields_updateAccuracy p false 0 pos.stake _).mono ?_
      rintro _ _ ⟨r, rfl⟩
      refine .claimed 0 0 hm hover hpos hunclaimed rfl rfl rfl ?_ (fun token' => ?_) ?_
      · rw [PredictionMarket.due, if_neg hresolved, if_neg fun h => hlost h.1]
        exact fun _ => ⟨le_rfl, le_rfl, rfl⟩
      · rw [max_self, ite_self, add_zero]
        rfl
      · rw [max_self, add_zero]
        rfl

theorem yields_marketOp (op : MarketOp) (s : MarketStore) :
    Yields op.run ctx s fun _ t => MarketEffect ctx.toWorld s t op := by
  cases op with
  | createMarket signers description threshold closesAt resolvesAt =>
    simp only [MarketOp.run, createMarket, nextMarketId, saveMarket, discard, yields_parts, yields_steps,
      yields_approved, yields_u64]
    refine (yields_true _ _ _).mono fun _ access _ => ?_
    intro _ _ _
    exact .created rfl rfl rfl rfl rfl rfl
  | placePrediction p id side stake token => exact yields_placePrediction p id side stake token s
  | resolveMarket signers id outcome =>
    simp only [MarketOp.run, resolveMarket, loadMarket, saveMarket, yields_parts, yields_steps, yields_approved]
    refine (yields_true _ _ _).mono fun _ access _ => ?_
    intro _ m hm hunder
    exact .resolved hm hunder.1 hunder.2 rfl rfl rfl
  | cancelMarket signers id =>
    simp only [MarketOp.run, cancelMarket, loadMarket, saveMarket, yields_parts, yields_steps, yields_approved]
    refine (yields_true _ _ _).mono fun _ access _ => ?_
    intro _ m hm hunder
    exact .cancelled hm hunder.1 hunder.2 rfl rfl rfl
  | claimPayout p id token =>
    simp only [MarketOp.run, discard, yields_steps]
    exact yields_claimPayout p id token s

end

end QuorumCredit
