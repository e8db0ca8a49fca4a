import QuorumCredit.MarketEffects
import QuorumCredit.Host.Shares
/-!
# Solvency of the prediction markets

The shares of the winners add up to no more than the stakes. But the stakes are
added up over all tokens, and a claim is paid in the token it names: per token a
market is solvent only if it is paid in the token it was staked in.
-/

open Host Function

namespace QuorumCredit

/-! ## Stakes and claims -/

/-- The token of a prediction by the participant on the market. -/
def MarketOp.placesAt (id : Nat) (p : Address) : MarketOp → Option Address
  | .placePrediction q i _ _ token => if i = id ∧ q = p then some token else none
  | _ => none

/-- The token of a prediction on the market. -/
def MarketOp.stakesOn (id : Nat) : MarketOp → Option Address
  | .placePrediction _ i _ _ token => if i = id then some token else none
  | _ => none

/-- The token in which the participant has staked on the market. -/
def placedToken (id : Nat) (p : Address) : MarketHistory → Option Address :=
  predictionMarkets.replay (fun _ op _ token => (op.placesAt id p).or token) none

/-- The tokens in which anybody has staked on the market. -/
def stakeTokens (id : Nat) : MarketHistory → List Address :=
  predictionMarkets.replay (fun _ op _ tokens => (op.stakesOn id).toList ++ tokens) []

/-- What was staked on the market in the token. -/
def stakedIn (id : Nat) (token : Address) : MarketHistory → Int :=
  predictionMarkets.tally fun s op t =>
    match op with
    | .placePrediction p i _ _ _ =>
      if i = id then
        Bank.sent t.bank.log token p s.world.contract - Bank.sent s.store.bank.log token p s.world.contract
      else 0
    | _ => 0

/-- What was paid out for the market in the token, and charged as a fee on it. -/
def chargedIn (id : Nat) (token : Address) : MarketHistory → Int :=
  predictionMarkets.tally fun s op t =>
    match op with
    | .claimPayout p i token' =>
      if i = id then
        Bank.sent t.bank.log token s.world.contract p - Bank.sent s.store.bank.log token s.world.contract p +
          if token' = token then t.treasury.treasuryBalance - s.store.treasury.treasuryBalance else 0
      else 0
    | _ => 0

def MarketOp.ClaimsFor (id : Nat) (p : Address) : MarketOp → Prop
  | .claimPayout q i _ => i = id ∧ q = p
  | _ => False

instance (id : Nat) (p : Address) (op : MarketOp) : Decidable (op.ClaimsFor id p) := by
  unfold MarketOp.ClaimsFor
  split <;> infer_instance

/-- How often the position was paid. -/
def claimsOf (id : Nat) (p : Address) : MarketHistory → Int :=
  predictionMarkets.tally fun _ op _ => if op.ClaimsFor id p then 1 else 0

namespace Markets

def stakeOf (g : Markets) (id : Nat) (p : Address) : Int := (g.marketPosition id p).elim 0 (·.stake)

def sideStake (g : Markets) (id : Nat) (side : PredictionSide) (p : Address) : Int :=
  (g.marketPosition id p).elim 0 fun pos => if pos.side = side then pos.stake else 0

/-- What a claimed position was due. -/
def paidOut (g : Markets) (id : Nat) (m : PredictionMarket) (p : Address) : Int :=
  (g.marketPosition id p).elim 0 fun pos => if pos.claimed = true then m.due pos else 0

/-- The stakes of the market as a pot that the winners share. -/
def pot (g : Markets) (id : Nat) (m : PredictionMarket) : Pot Address :=
  { weight := g.sideStake id (if m.outcome = some true then .yes else .no), total := m.winningStake
    whole := m.totalYesStake + m.totalNoStake }

end Markets

/-! ## The books of a market -/

structure MarketBooks (h : MarketHistory) (g : Markets) (id : Nat) (m : PredictionMarket) : Prop where
  yes : Totals (g.sideStake id .yes) m.totalYesStake
  no : Totals (g.sideStake id .no) m.totalNoStake
  staked : ∀ token, Totals (fun p => if placedToken id p h = some token then g.stakeOf id p else 0)
    (stakedIn id token h)
  charged : ∀ token, Totals (fun p => if placedToken id p h = some token then g.paidOut id m p else 0)
    (chargedIn id token h)
  stake : ∀ p pos, g.marketPosition id p = some pos → 0 < pos.stake
  placed : ∀ p pos, g.marketPosition id p = some pos → ∃ token, placedToken id p h = some token
  unclaimed : m.status ≠ .resolved → m.status ≠ .cancelled → ∀ p pos, g.marketPosition id p = some pos →
    pos.claimed = false
  single : m.status = .resolved → ∀ p pos, g.marketPosition id p = some pos → pos.claimed = true → m.due pos ≠ 0 →
    ∀ q pos', g.marketPosition id q = some pos' → placedToken id q h = placedToken id p h
  claims : ∀ p, claimsOf id p h = (g.marketPosition id p).elim 0 fun pos => if pos.claimed = true then 1 else 0

/-- No market has this id yet. -/
structure Unopened (h : MarketHistory) (g : Markets) (id : Nat) : Prop where
  position : g.marketPosition id = fun _ => none
  placed : ∀ p, placedToken id p h = none
  staked : ∀ token, stakedIn id token h = 0
  charged : ∀ token, chargedIn id token h = 0
  claims : ∀ p, claimsOf id p h = 0

structure MarketsSound (h : MarketHistory) (s : Situated World MarketStore) : Prop where
  numbered : ∀ id, s.store.markets.predictionMarketCounter < id → s.store.markets.predictionMarket id = none
  unopened : ∀ id, s.store.markets.predictionMarket id = none → Unopened h s.store.markets id
  books : ∀ id m, s.store.markets.predictionMarket id = some m → MarketBooks h s.store.markets id m

section

variable {h : MarketHistory} {g : Markets} {id : Nat} {m : PredictionMarket} {p : Address} {pos : MarketPosition}

theorem MarketBooks.stakeOf_nonneg (hb : MarketBooks h g id m) (p : Address) : 0 ≤ g.stakeOf id p := by
  cases hpos : g.marketPosition id p with
  | none => simp [Markets.stakeOf, hpos]
  | some pos => simpa [Markets.stakeOf, hpos] using (hb.stake p pos hpos).le

theorem MarketBooks.sideStake_nonneg (hb : MarketBooks h g id m) (side : PredictionSide) (p : Address) :
    0 ≤ g.sideStake id side p := by
  cases hpos : g.marketPosition id p with
  | none => simp [Markets.sideStake, hpos]
  | some pos =>
    have hstake := (hb.stake p pos hpos).le
    simp only [Markets.sideStake, hpos, Option.elim_some]
    split
    · exact hstake
    · exact le_rfl

theorem MarketBooks.pot_sound (hb : MarketBooks h g id m) : (g.pot id m).Sound := by
  have hyes := hb.yes.nonneg (hb.sideStake_nonneg .yes)
  have hno := hb.no.nonneg (hb.sideStake_nonneg .no)
  refine ⟨?_, fun p => hb.sideStake_nonneg _ p, Int.add_nonneg hyes hno⟩
  simp only [Markets.pot, PredictionMarket.winningStake]
  rcases m.outcome with _ | _ | _
  · exact hb.no
  · exact hb.no
  · exact hb.yes

/-- What a winner is due is its share of the pot. -/
theorem due_won (hstatus : m.status ≠ .cancelled) (hpos : g.marketPosition id p = some pos)
    (hwon : pos.won m.outcome = true) (hsome : m.winningStake ≠ 0) : m.due pos = (g.pot id m).share p := by
  rw [PredictionMarket.due, if_neg hstatus, if_pos ⟨hwon, hsome⟩]
  have hweight : (g.pot id m).weight p = pos.stake := by
    simp only [Markets.pot, Markets.sideStake, hpos, Option.elim_some]
    rcases hout : m.outcome with _ | _ | _
    · simp [MarketPosition.won, hout] at hwon
    · simp_all [MarketPosition.won]
    · simp_all [MarketPosition.won]
  rw [Pot.share, hweight]
  rfl

theorem due_lost (hstatus : m.status ≠ .cancelled) (hlost : ¬ (pos.won m.outcome = true ∧ m.winningStake ≠ 0)) :
    m.due pos = 0 := by
  rw [PredictionMarket.due, if_neg hstatus, if_neg hlost]

theorem MarketBooks.due_nonneg (hb : MarketBooks h g id m) (hpos : g.marketPosition id p = some pos) :
    0 ≤ m.due pos := by
  by_cases hstatus : m.status = .cancelled
  · rw [PredictionMarket.due, if_pos hstatus]
    exact (hb.stake p pos hpos).le
  · by_cases hwon : pos.won m.outcome = true ∧ m.winningStake ≠ 0
    · rw [due_won hstatus hpos hwon.1 hwon.2]
      exact hb.pot_sound.share_nonneg p
    · rw [due_lost hstatus hwon]

/-- In a market that is resolved, what was paid out is within the shares. -/
theorem MarketBooks.paidOut_le_share (hb : MarketBooks h g id m) (hstatus : m.status ≠ .cancelled) (p : Address) :
    g.paidOut id m p ≤ (g.pot id m).share p := by
  have hshare := hb.pot_sound.share_nonneg p
  cases hpos : g.marketPosition id p with
  | none => simpa [Markets.paidOut, hpos] using hshare
  | some pos =>
    simp only [Markets.paidOut, hpos, Option.elim_some]
    split
    · by_cases hwon : pos.won m.outcome = true ∧ m.winningStake ≠ 0
      · exact (due_won hstatus hpos hwon.1 hwon.2).le
      · rw [due_lost hstatus hwon]
        exact hshare
    · exact hshare

theorem MarketBooks.staked_nonneg (hb : MarketBooks h g id m) (token : Address) : 0 ≤ stakedIn id token h := by
  refine (hb.staked token).nonneg fun p => ?_
  split
  · exact hb.stakeOf_nonneg p
  · exact le_rfl

/-- In a market that is staked in one token, the stakes are the pot. -/
theorem MarketBooks.staked_eq_pot (hb : MarketBooks h g id m) {token : Address}
    (hall : ∀ p pos, g.marketPosition id p = some pos → placedToken id p h = some token) :
    stakedIn id token h = m.totalYesStake + m.totalNoStake := by
  rw [(hb.staked token).sum, hb.yes.sum, hb.no.sum, ← finsum_add_distrib hb.yes.finite hb.no.finite]
  apply finsum_congr
  intro p
  cases hpos : g.marketPosition id p with
  | none => simp [Markets.stakeOf, Markets.sideStake, hpos]
  | some pos =>
    rw [if_pos (hall p pos hpos)]
    simp only [Markets.stakeOf, Markets.sideStake, hpos, Option.elim_some]
    cases pos.side <;> simp

/-- What was paid and charged in a token is within what was staked in it. -/
theorem MarketBooks.solvent (hb : MarketBooks h g id m) (token : Address) :
    chargedIn id token h ≤ stakedIn id token h := by
  have hstaked := hb.staked_nonneg token
  have hnothing : (∀ p, placedToken id p h = some token → g.paidOut id m p = 0) →
      chargedIn id token h ≤ stakedIn id token h := by
    intro hzero
    rw [(hb.charged token).sum, finsum_eq_zero_of_forall_eq_zero fun p => ?_]
    · exact hstaked
    · split
      case isTrue hplaced => exact hzero p hplaced
      case isFalse => rfl
  by_cases hcancelled : m.status = .cancelled
  · rw [(hb.charged token).sum, (hb.staked token).sum]
    refine finsum_le_finsum' (hb.charged token).finite (hb.staked token).finite fun p => ?_
    split
    · cases hpos : g.marketPosition id p with
      | none => simp [Markets.paidOut, Markets.stakeOf, hpos]
      | some pos =>
        have hstake := hb.stake p pos hpos
        simp only [Markets.paidOut, Markets.stakeOf, hpos, Option.elim_some, PredictionMarket.due, if_pos hcancelled]
        split
        · exact le_rfl
        · exact hstake.le
    · exact le_rfl
  by_cases hresolved : m.status = .resolved
  · by_cases hwinner : ∃ p pos, g.marketPosition id p = some pos ∧ pos.claimed = true ∧ m.due pos ≠ 0
    · obtain ⟨p, pos, hpos, hclaimed, hdue⟩ := hwinner
      obtain ⟨paid, hpaid⟩ := hb.placed p pos hpos
      have hall : ∀ q pos', g.marketPosition id q = some pos' → placedToken id q h = some paid := fun q pos' hq =>
        (hb.single hresolved p pos hpos hclaimed hdue q pos' hq).trans hpaid
      by_cases htoken : token = paid
      · rw [htoken, hb.staked_eq_pot hall, (hb.charged paid).sum]
        refine le_trans ?_ hb.pot_sound.sum_share_le
        refine finsum_le_finsum' (hb.charged paid).finite hb.pot_sound.share_finite fun q => ?_
        split
        · exact hb.paidOut_le_share hcancelled q
        · exact hb.pot_sound.share_nonneg q
      · refine hnothing fun q hq => ?_
        cases hposition : g.marketPosition id q with
        | none => simp [Markets.paidOut, hposition]
        | some pos' =>
          rw [hall q pos' hposition] at hq
          cases hq
          exact (htoken rfl).elim
    · refine hnothing fun q _ => ?_
      cases hposition : g.marketPosition id q with
      | none => simp [Markets.paidOut, hposition]
      | some pos' =>
        simp only [Markets.paidOut, hposition, Option.elim_some]
        split
        case isTrue hclaimed =>
          by_contra hdue
          exact hwinner ⟨q, pos', hposition, hclaimed, hdue⟩
        case isFalse => rfl
  · refine hnothing fun q _ => ?_
    cases hposition : g.marketPosition id q with
    | none => simp [Markets.paidOut, hposition]
    | some pos' => simp [Markets.paidOut, hposition, hb.unclaimed hresolved hcancelled q pos' hposition]

end

/-! ## One call -/

/-- A winner names the token in which all stakes of the market were placed; in a
cancelled market a participant names the token of its own stake. -/
def PaysInKind (h : MarketHistory) (s : Situated World MarketStore) : MarketOp → Prop
  | .claimPayout p id token => ∀ m ∈ s.store.markets.predictionMarket id, ∀ pos ∈ s.store.markets.marketPosition id p,
      (m.status = .cancelled → placedToken id p h = some token) ∧
        (m.status = .resolved → pos.won m.outcome = true → ∀ token' ∈ stakeTokens id h, token' = token)
  | _ => True

instance (h : MarketHistory) (s : Situated World MarketStore) (op : MarketOp) : Decidable (PaysInKind h s op) := by
  unfold PaysInKind
  split <;> infer_instance

section

variable {h : MarketHistory} {s : Situated World MarketStore} {signers : List Address} {op : MarketOp}
  {t : MarketStore} {id : Nat} {m : PredictionMarket} {p : Address}

theorem marketEffect_of (he : predictionMarkets.exec s signers op = some t) : MarketEffect s.world s.store t op :=
  Component.exec_yields (Q := fun t => MarketEffect s.world s.store t op) (yields_marketOp op s.store) he

theorem placedToken_call (he : predictionMarkets.exec s signers op = some t) (id : Nat) (p : Address) :
    placedToken id p ((s, .call signers op) :: h) = (op.placesAt id p).or (placedToken id p h) :=
  Component.replay_call he _ _ _

theorem stakeTokens_call (he : predictionMarkets.exec s signers op = some t) (id : Nat) :
    stakeTokens id ((s, .call signers op) :: h) = (op.stakesOn id).toList ++ stakeTokens id h :=
  Component.replay_call he _ _ _

variable {token : Address}

/-- The token of a prediction on the market is one of the market's. -/
theorem placedToken_mem (hplaced : placedToken id p h = some token) : token ∈ stakeTokens id h := by
  induction h with
  | nil => cases hplaced
  | cons e h ih =>
    obtain ⟨s, e⟩ := e
    cases hdone : predictionMarkets.done s e with
    | none =>
      rw [placedToken, Component.replay_idle hdone] at hplaced
      rw [stakeTokens, Component.replay_idle hdone]
      exact ih hplaced
    | some d =>
      obtain ⟨op, t⟩ := d
      obtain ⟨signers, rfl, he⟩ := Component.of_done hdone
      rw [placedToken_call he] at hplaced
      rw [stakeTokens_call he, List.mem_append]
      rcases hat : op.placesAt id p with _ | token'
      · rw [hat, Option.none_or] at hplaced
        exact .inr (ih hplaced)
      · left
        rw [hat, Option.some_or] at hplaced
        cases hplaced
        cases op with
        | placePrediction q i side stake token'' =>
          simp only [MarketOp.placesAt] at hat
          split at hat
          case isTrue hi =>
            cases hat
            simp [MarketOp.stakesOn, hi.1]
          case isFalse => cases hat
        | createMarket => cases hat
        | resolveMarket => cases hat
        | cancelMarket => cases hat
        | claimPayout => cases hat

/-- The market that the call stakes on or pays from. -/
def MarketOp.moves : MarketOp → Option (Nat × Address)
  | .placePrediction p id _ _ _ => some (id, p)
  | .claimPayout p id _ => some (id, p)
  | _ => none

/-- A call that moves no money of the market. -/
theorem market_unmoved (he : predictionMarkets.exec s signers op = some t)
    (hmoves : op.moves.map Prod.fst ≠ some id) :
    (∀ p, placedToken id p ((s, .call signers op) :: h) = placedToken id p h) ∧
      (∀ token, stakedIn id token ((s, .call signers op) :: h) = stakedIn id token h) ∧
      (∀ token, chargedIn id token ((s, .call signers op) :: h) = chargedIn id token h) ∧
      ∀ p, claimsOf id p ((s, .call signers op) :: h) = claimsOf id p h := by
  have hplaces : ∀ p, op.placesAt id p = none := fun p => by
    cases op with
    | placePrediction q i side stake token =>
      refine if_neg fun hi => hmoves ?_
      rw [← hi.1]
      rfl
    | _ => rfl
  refine ⟨fun p => ?_, fun token => ?_, fun token => ?_, fun p => ?_⟩
  · rw [placedToken_call he, hplaces, Option.none_or]
  · rw [stakedIn, Component.tally_call he]
    cases op with
    | placePrediction q i side stake token' =>
      have hi : i ≠ id := fun hi => hmoves (by rw [← hi]; rfl)
      simp only [if_neg hi, add_zero]
    | _ => exact add_zero _
  · rw [chargedIn, Component.tally_call he]
    cases op with
    | claimPayout q i token' =>
      have hi : i ≠ id := fun hi => hmoves (by rw [← hi]; rfl)
      simp only [if_neg hi, add_zero]
    | _ => exact add_zero _
  · rw [claimsOf, Component.tally_call he, if_neg, add_zero]
    intro hclaims
    cases op with
    | claimPayout q i token' =>
      obtain ⟨rfl, -⟩ := hclaims
      exact hmoves rfl
    | _ => exact hclaims

theorem MarketBooks.other {g' : Markets} (hb : MarketBooks h s.store.markets id m)
    (he : predictionMarkets.exec s signers op = some t) (hmoves : op.moves.map Prod.fst ≠ some id)
    (hposition : g'.marketPosition id = s.store.markets.marketPosition id) :
    MarketBooks ((s, .call signers op) :: h) g' id m := by
  obtain ⟨hplaced, hstaked, hcharged, hclaims⟩ := market_unmoved (h := h) he hmoves
  have hpaid : g'.paidOut id m = s.store.markets.paidOut id m := by
    funext p
    simp only [Markets.paidOut, hposition]
  have hstake : g'.stakeOf id = s.store.markets.stakeOf id := by
    funext p
    simp only [Markets.stakeOf, hposition]
  have hside : ∀ side, g'.sideStake id side = s.store.markets.sideStake id side := fun side => by
    funext p
    simp only [Markets.sideStake, hposition]
  constructor
  · rw [hside]
    exact hb.yes
  · rw [hside]
    exact hb.no
  · intro token
    simp only [hplaced, hstaked, hstake]
    exact hb.staked token
  · intro token
    simp only [hplaced, hcharged, hpaid]
    exact hb.charged token
  · rw [hposition]
    exact hb.stake
  · rw [hposition]
    intro q pos hq
    rw [hplaced]
    exact hb.placed q pos hq
  · rw [hposition]
    exact hb.unclaimed
  · rw [hposition]
    intro hresolved q pos hq hclaimed hdue r pos' hr
    rw [hplaced, hplaced]
    exact hb.single hresolved q pos hq hclaimed hdue r pos' hr
  · rw [hposition]
    intro q
    rw [hclaims]
    exact hb.claims q

theorem Unopened.other {g' : Markets} (hb : Unopened h s.store.markets id)
    (he : predictionMarkets.exec s signers op = some t) (hmoves : op.moves.map Prod.fst ≠ some id)
    (hposition : g'.marketPosition id = s.store.markets.marketPosition id) :
    Unopened ((s, .call signers op) :: h) g' id := by
  obtain ⟨hplaced, hstaked, hcharged, hclaims⟩ := market_unmoved (h := h) he hmoves
  refine ⟨hposition.trans hb.position, fun p => ?_, fun token => ?_, fun token => ?_, fun p => ?_⟩
  · rw [hplaced]
    exact hb.placed p
  · rw [hstaked]
    exact hb.staked token
  · rw [hcharged]
    exact hb.charged token
  · rw [hclaims]
    exact hb.claims p

/-- A market on which nobody has staked. -/
theorem Unopened.opened {g' : Markets} (hb : Unopened h g' id) (hyes : m.totalYesStake = 0) (hno : m.totalNoStake = 0) :
    MarketBooks h g' id m := by
  have hposition := hb.position
  constructor
  · refine Totals.zero.congr ?_ hyes
    funext p
    simp only [Markets.sideStake, hposition, Option.elim_none]
  · refine Totals.zero.congr ?_ hno
    funext p
    simp only [Markets.sideStake, hposition, Option.elim_none]
  · intro token
    refine Totals.zero.congr ?_ (hb.staked token)
    funext p
    simp only [hb.placed, reduceCtorEq, if_false]
  · intro token
    refine Totals.zero.congr ?_ (hb.charged token)
    funext p
    simp only [hb.placed, reduceCtorEq, if_false]
  · intro p pos hpos
    rw [hposition] at hpos
    cases hpos
  · intro p pos hpos
    rw [hposition] at hpos
    cases hpos
  · intro _ _ p pos hpos
    rw [hposition] at hpos
    cases hpos
  · intro _ p pos hpos
    rw [hposition] at hpos
    cases hpos
  · intro p
    rw [hposition]
    exact hb.claims p

theorem stakedIn_place {side : PredictionSide} {stake : Int}
    (he : predictionMarkets.exec s signers (.placePrediction p id side stake token) = some t)
    (hsent : ∀ token', Bank.sent t.bank.log token' p s.world.contract = Bank.sent s.store.bank.log token' p s.world.contract + if token = token' then stake else 0)
    (token' : Address) :
    stakedIn id token' ((s, .call signers (.placePrediction p id side stake token)) :: h) =
      stakedIn id token' h + if token = token' then stake else 0 := by
  rw [stakedIn, Component.tally_call he]
  simp only [if_true, hsent]
  omega

theorem chargedIn_claim {net fee : Int} (he : predictionMarkets.exec s signers (.claimPayout p id token) = some t)
    (hsent : ∀ token', Bank.sent t.bank.log token' s.world.contract p = Bank.sent s.store.bank.log token' s.world.contract p + if token = token' then max net 0 else 0)
    (hbalance : t.treasury.treasuryBalance = s.store.treasury.treasuryBalance + max fee 0) (token' : Address) :
    chargedIn id token' ((s, .call signers (.claimPayout p id token)) :: h) =
      chargedIn id token' h + if token = token' then max net 0 + max fee 0 else 0 := by
  rw [chargedIn, Component.tally_call he]
  simp only [if_true, hsent, hbalance]
  split
  · omega
  · omega

/-- Nothing has been paid in a market that goes on. -/
theorem MarketBooks.paidOut_open {g : Markets} (hb : MarketBooks h g id m) (hresolved : m.status ≠ .resolved)
    (hcancelled : m.status ≠ .cancelled) (m' : PredictionMarket) : g.paidOut id m' = fun _ => 0 := by
  funext p
  cases hpos : g.marketPosition id p with
  | none => simp [Markets.paidOut, hpos]
  | some pos => simp [Markets.paidOut, hpos, hb.unclaimed hresolved hcancelled p pos hpos]

/-- The market ends, with or without an outcome. -/
theorem MarketBooks.ended (hb : MarketBooks h s.store.markets id m) (he : predictionMarkets.exec s signers op = some t)
    (hmoves : op.moves.map Prod.fst ≠ some id) (hresolved : m.status ≠ .resolved) (hcancelled : m.status ≠ .cancelled)
    {m' : PredictionMarket} (hyes : m'.totalYesStake = m.totalYesStake) (hno : m'.totalNoStake = m.totalNoStake)
    (hposition : t.markets.marketPosition = s.store.markets.marketPosition) :
    MarketBooks ((s, .call signers op) :: h) t.markets id m' := by
  have hsame := hb.other he hmoves (congrFun hposition id)
  have hunclaimed : ∀ q pos, t.markets.marketPosition id q = some pos → pos.claimed = false :=
    hsame.unclaimed hresolved hcancelled
  refine ⟨hsame.yes.congr rfl hyes, hsame.no.congr rfl hno, hsame.staked, fun token => ?_, hsame.stake, hsame.placed,
    fun _ _ => hunclaimed, fun _ q pos hq hclaimed => ?_, hsame.claims⟩
  · refine (hsame.charged token).congr ?_ rfl
    rw [hsame.paidOut_open hresolved hcancelled, hsame.paidOut_open hresolved hcancelled]
  · rw [hunclaimed q pos hq] at hclaimed
    cases hclaimed

/-- A stake on the market. -/
theorem MarketBooks.stakeAdded {side : PredictionSide} {stake : Int} (hb : MarketBooks h s.store.markets id m)
    (he : predictionMarkets.exec s signers (.placePrediction p id side stake token) = some t)
    (hopen : m.status = .open) (hnew : s.store.markets.marketPosition id p = none) (hpos : 0 < stake)
    (hposition : t.markets.marketPosition id = update (s.store.markets.marketPosition id) p (some { participant := p, side, stake, claimed := false }))
    (hsent : ∀ token', Bank.sent t.bank.log token' p s.world.contract = Bank.sent s.store.bank.log token' p s.world.contract + if token = token' then stake else 0) :
    MarketBooks ((s, .call signers (.placePrediction p id side stake token)) :: h) t.markets id
      (m.staked side stake) := by
  have hplaced : ∀ q, placedToken id q ((s, .call signers (.placePrediction p id side stake token)) :: h) =
      if q = p then some token else placedToken id q h := by
    intro q
    rw [placedToken_call he]
    by_cases hq : q = p
    · simp [MarketOp.placesAt, hq]
    · simp [MarketOp.placesAt, hq, Ne.symm hq]
  have hstatus : (m.staked side stake).status = .open := by
    cases side <;> exact hopen
  have hresolved : m.status ≠ .resolved := by simp [hopen]
  have hcancelled : m.status ≠ .cancelled := by simp [hopen]
  have hside : ∀ side', t.markets.sideStake id side' =
      update (s.store.markets.sideStake id side') p (if side = side' then stake else 0) := by
    intro side'
    funext q
    by_cases hq : q = p
    · simp [Markets.sideStake, hposition, hq]
    · simp [Markets.sideStake, hposition, hq]
  have hbefore : ∀ side', s.store.markets.sideStake id side' p = 0 := fun side' => by
    simp [Markets.sideStake, hnew]
  have hclaims : ∀ q pos, t.markets.marketPosition id q = some pos →
      pos.claimed = false := by
    intro q pos hq
    rw [hposition, update_apply] at hq
    split at hq
    · cases hq
      rfl
    · exact hb.unclaimed hresolved hcancelled q pos hq
  constructor
  · refine (hb.yes.update p (if side = .yes then stake else 0)).congr (hside .yes) ?_
    rw [hbefore]
    cases side <;> simp [PredictionMarket.staked]
  · refine (hb.no.update p (if side = .no then stake else 0)).congr (hside .no) ?_
    rw [hbefore]
    cases side <;> simp [PredictionMarket.staked]
  · intro token'
    rw [stakedIn_place he hsent]
    refine ((hb.staked token').update p (if token = token' then stake else 0)).congr ?_ ?_
    · funext q
      by_cases hq : q = p
      · simp [hplaced, hq, Markets.stakeOf, hposition]
      · simp [hplaced, hq, Markets.stakeOf, hposition]
    · have hzero : s.store.markets.stakeOf id p = 0 := by simp [Markets.stakeOf, hnew]
      rw [hzero, ite_self, sub_zero]
  · intro token'
    rw [chargedIn, Component.tally_call he, add_zero]
    refine (hb.charged token').congr ?_ rfl
    rw [hb.paidOut_open hresolved hcancelled]
    funext q
    rw [ite_self]
    cases hq : t.markets.marketPosition id q with
    | none => simp [Markets.paidOut, hq]
    | some pos => simp [Markets.paidOut, hq, hclaims q pos hq]
  · intro q pos hq
    rw [hposition, update_apply] at hq
    split at hq
    · cases hq
      exact hpos
    · exact hb.stake q pos hq
  · intro q pos hq
    rw [hplaced]
    rw [hposition, update_apply] at hq
    split at hq
    case isTrue heq =>
      rw [if_pos heq]
      exact ⟨token, rfl⟩
    case isFalse hne =>
      rw [if_neg hne]
      exact hb.placed q pos hq
  · exact fun _ _ => hclaims
  · intro hresolved'
    rw [hstatus] at hresolved'
    cases hresolved'
  · intro q
    rw [claimsOf, Component.tally_call he]
    refine (add_zero _).trans ((hb.claims q).trans ?_)
    by_cases hq : q = p
    · simp [hposition, hq, hnew]
    · simp [hposition, hq]

/-- A claim, in the token of the stakes. -/
theorem MarketBooks.claimPaid {pos : MarketPosition} {net fee : Int} (hb : MarketBooks h s.store.markets id m)
    (he : predictionMarkets.exec s signers (.claimPayout p id token) = some t)
    (hok : PaysInKind h s (.claimPayout p id token)) (hm : s.store.markets.predictionMarket id = some m)
    (hover : m.status = .resolved ∨ m.status = .cancelled) (hpos : s.store.markets.marketPosition id p = some pos)
    (hunclaimed : pos.claimed = false)
    (hposition : t.markets.marketPosition id = update (s.store.markets.marketPosition id) p (some { pos with claimed := true }))
    (hdue : 0 ≤ m.due pos → 0 ≤ net ∧ 0 ≤ fee ∧ net + fee = m.due pos)
    (hsent : ∀ token', Bank.sent t.bank.log token' s.world.contract p = Bank.sent s.store.bank.log token' s.world.contract p + if token = token' then max net 0 else 0)
    (hbalance : t.treasury.treasuryBalance = s.store.treasury.treasuryBalance + max fee 0) :
    MarketBooks ((s, .call signers (.claimPayout p id token)) :: h) t.markets id m := by
  obtain ⟨hnet, hfee, htotal⟩ := hdue (hb.due_nonneg hpos)
  obtain ⟨hrefund, hwin⟩ := hok m hm pos hpos
  have hplaced : ∀ q, placedToken id q ((s, .call signers (.claimPayout p id token)) :: h) = placedToken id q h := by
    intro q
    rw [placedToken_call he]
    rfl
  -- who is due something is paid in the token of its stake
  have htoken : m.due pos ≠ 0 → placedToken id p h = some token ∧
      (m.status = .resolved → ∀ q pos', s.store.markets.marketPosition id q = some pos' →
        placedToken id q h = some token) := by
    intro hsome
    rcases hover with hresolved | hcancelled
    · have hwon : pos.won m.outcome = true := by
        by_contra hlost
        exact hsome (due_lost (by simp [hresolved]) fun hw => hlost hw.1)
      have hall : ∀ q pos', s.store.markets.marketPosition id q = some pos' → placedToken id q h = some token := by
        intro q pos' hq
        obtain ⟨token', htoken'⟩ := hb.placed q pos' hq
        rw [htoken', hwin hresolved hwon token' (placedToken_mem htoken')]
      exact ⟨hall p pos hpos, fun _ => hall⟩
    · exact ⟨hrefund hcancelled, fun hresolved => by rw [hcancelled] at hresolved; cases hresolved⟩
  have hpaid : t.markets.paidOut id m = update (s.store.markets.paidOut id m) p (m.due pos) := by
    funext q
    by_cases hq : q = p
    · rw [hq, update_self]
      simp only [Markets.paidOut, hposition, update_self, Option.elim_some, if_true]
      rfl
    · simp [Markets.paidOut, hposition, hq]
  have hside : ∀ side, t.markets.sideStake id side = s.store.markets.sideStake id side := by
    intro side
    funext q
    by_cases hq : q = p
    · simp [Markets.sideStake, hposition, hq, hpos]
    · simp [Markets.sideStake, hposition, hq]
  have hstake : t.markets.stakeOf id = s.store.markets.stakeOf id := by
    funext q
    by_cases hq : q = p
    · simp [Markets.stakeOf, hposition, hq, hpos]
    · simp [Markets.stakeOf, hposition, hq]
  have hold : ∀ q pos', t.markets.marketPosition id q = some pos' →
      ∃ pos₀, s.store.markets.marketPosition id q = some pos₀ ∧ pos₀.stake = pos'.stake ∧ m.due pos₀ = m.due pos' ∧
        (pos'.claimed = true → q = p ∨ pos₀.claimed = true) := by
    intro q pos' hq
    rw [hposition, update_apply] at hq
    split at hq
    case isTrue heq =>
      cases hq
      exact ⟨pos, heq ▸ hpos, rfl, rfl, fun _ => .inl heq⟩
    case isFalse => exact ⟨pos', hq, rfl, rfl, fun hclaimed => .inr hclaimed⟩
  constructor
  · rw [hside]
    exact hb.yes
  · rw [hside]
    exact hb.no
  · intro token'
    simp only [hplaced, hstake]
    rw [stakedIn, Component.tally_call he, add_zero]
    exact hb.staked token'
  · intro token'
    rw [chargedIn_claim he hsent hbalance, max_eq_left hnet, max_eq_left hfee, htotal]
    refine ((hb.charged token').update p (if placedToken id p h = some token' then m.due pos else 0)).congr ?_ ?_
    · funext q
      rw [hplaced, hpaid]
      by_cases hq : q = p
      · simp [hq]
      · simp [hq]
    · have hzero : s.store.markets.paidOut id m p = 0 := by simp [Markets.paidOut, hpos, hunclaimed]
      rw [hzero, ite_self, sub_zero]
      by_cases hsome : m.due pos = 0
      · rw [hsome, ite_self, ite_self]
      · simp only [(htoken hsome).1, Option.some.injEq]
  · intro q pos' hq
    obtain ⟨pos₀, hq₀, hsame, -⟩ := hold q pos' hq
    rw [← hsame]
    exact hb.stake q pos₀ hq₀
  · intro q pos' hq
    obtain ⟨pos₀, hq₀, -⟩ := hold q pos' hq
    rw [hplaced]
    exact hb.placed q pos₀ hq₀
  · intro hresolved hcancelled
    rcases hover with h' | h'
    · exact (hresolved h').elim
    · exact (hcancelled h').elim
  · intro hresolved q pos' hq hclaimed hsome r pos'' hr
    obtain ⟨pos₀, hq₀, -, hdue₀, hwas⟩ := hold q pos' hq
    obtain ⟨pos₁, hr₁, -⟩ := hold r pos'' hr
    rw [hplaced, hplaced]
    rcases hwas hclaimed with rfl | hclaimed₀
    · cases hpos.symm.trans hq₀
      rw [← hdue₀] at hsome
      rw [(htoken hsome).1, (htoken hsome).2 hresolved r pos₁ hr₁]
    · rw [← hdue₀] at hsome
      exact hb.single hresolved q pos₀ hq₀ hclaimed₀ hsome r pos₁ hr₁
  · intro q
    rw [claimsOf, Component.tally_call he]
    have hbefore := hb.claims q
    rw [claimsOf] at hbefore
    rw [hbefore]
    by_cases hq : q = p
    · simp [MarketOp.ClaimsFor, hq, hposition, hpos, hunclaimed]
    · simp [MarketOp.ClaimsFor, hq, Ne.symm hq, hposition]

/-- A call that writes the market `k`. -/
theorem MarketsSound.written (hs : MarketsSound h s) (he : predictionMarkets.exec s signers op = some t) {k : Nat}
    {m' : PredictionMarket}
    (hmarket : t.markets.predictionMarket = update s.store.markets.predictionMarket k (some m'))
    (hcounter : s.store.markets.predictionMarketCounter ≤ t.markets.predictionMarketCounter)
    (hk : k ≤ t.markets.predictionMarketCounter)
    (hothers : ∀ id, id ≠ k → op.moves.map Prod.fst ≠ some id ∧
      t.markets.marketPosition id = s.store.markets.marketPosition id)
    (hnew : MarketBooks ((s, .call signers op) :: h) t.markets k m') :
    MarketsSound ((s, .call signers op) :: h) ⟨s.world, t⟩ := by
  constructor
  · intro id (hlt : t.markets.predictionMarketCounter < id)
    rw [hmarket, update_of_ne (by omega)]
    exact hs.numbered id (by omega)
  · intro id hnone
    rw [hmarket, update_apply] at hnone
    split at hnone
    · cases hnone
    case isFalse hne =>
      obtain ⟨hmoves, hposition⟩ := hothers id hne
      exact (hs.unopened id hnone).other he hmoves hposition
  · intro id m hm
    rw [hmarket, update_apply] at hm
    split at hm
    case isTrue heq =>
      cases hm
      rw [heq]
      exact hnew
    case isFalse hne =>
      obtain ⟨hmoves, hposition⟩ := hothers id hne
      exact (hs.books id m hm).other he hmoves hposition

theorem MarketsSound.known (hs : MarketsSound h s) (hm : s.store.markets.predictionMarket id = some m) :
    id ≤ s.store.markets.predictionMarketCounter := by
  by_contra hlt
  rw [hs.numbered id (by omega)] at hm
  cases hm

theorem MarketsSound.call (hs : MarketsSound h s) (hok : PaysInKind h s op)
    (he : predictionMarkets.exec s signers op = some t) : MarketsSound ((s, .call signers op) :: h) ⟨s.world, t⟩ := by
  cases marketEffect_of he with
  | @created _ _ _ _ _ m hyes hno hopen hmarket hcounter hposition =>
    have hnone := hs.unopened _ (hs.numbered (s.store.markets.predictionMarketCounter + 1) (by omega))
    have hblank := hnone.other he (by simp [MarketOp.moves]) (congrFun hposition _)
    refine hs.written he hmarket (by omega) hcounter.ge (fun id _ => ⟨by simp [MarketOp.moves], ?_⟩)
      (hblank.opened hyes hno)
    exact congrFun hposition id
  | @placed p id side stake token m hm hopen hnew hpos hmarket hcounter hposition hsent =>
    refine hs.written he hmarket (by omega) (hcounter ▸ hs.known hm) (fun other hne => ⟨?_, ?_⟩) ?_
    · simpa [MarketOp.moves] using hne.symm
    · rw [hposition, update_of_ne hne]
    · exact (hs.books id m hm).stakeAdded he hopen hnew hpos (by rw [hposition, update_self]) hsent
  | @resolved signers' id outcome m hm hresolved hcancelled hmarket hcounter hposition =>
    refine hs.written he hmarket (by omega) (hcounter ▸ hs.known hm)
      (fun other _ => ⟨by simp [MarketOp.moves], congrFun hposition other⟩) ?_
    exact (hs.books id m hm).ended he (by simp [MarketOp.moves]) hresolved hcancelled rfl rfl hposition
  | @cancelled signers' id m hm hresolved hcancelled hmarket hcounter hposition =>
    refine hs.written he hmarket (by omega) (hcounter ▸ hs.known hm)
      (fun other _ => ⟨by simp [MarketOp.moves], congrFun hposition other⟩) ?_
    exact (hs.books id m hm).ended he (by simp [MarketOp.moves]) hresolved hcancelled rfl rfl hposition
  | @claimed p id token m pos net fee hm hover hpos hunclaimed hmarket hcounter hposition hdue hsent hbalance =>
    have hsame : t.markets.predictionMarket = update s.store.markets.predictionMarket id (some m) := by
      rw [hmarket, ← hm, update_eq_self]
    refine hs.written he hsame (by omega) (hcounter ▸ hs.known hm) (fun other hne => ⟨?_, ?_⟩) ?_
    · simpa [MarketOp.moves] using hne.symm
    · rw [hposition, update_of_ne hne]
    · exact (hs.books id m hm).claimPaid he hok hm hover hpos hunclaimed (by rw [hposition, update_self]) hdue hsent
        hbalance

theorem MarketsSound.idle {e : Event World (List Address) MarketStore MarketOp} {s' : Situated World MarketStore}
    (hs : MarketsSound h s) (hnone : predictionMarkets.done s e = none) (hsame : s'.store.markets = s.store.markets) :
    MarketsSound ((s, e) :: h) s' := by
  have hplaced : ∀ id p, placedToken id p ((s, e) :: h) = placedToken id p h := fun _ _ =>
    Component.replay_idle hnone _ _ _
  have hstaked : ∀ id token, stakedIn id token ((s, e) :: h) = stakedIn id token h := fun _ _ =>
    Component.tally_idle hnone _ _
  have hcharged : ∀ id token, chargedIn id token ((s, e) :: h) = chargedIn id token h := fun _ _ =>
    Component.tally_idle hnone _ _
  have hclaims : ∀ id p, claimsOf id p ((s, e) :: h) = claimsOf id p h := fun _ _ => Component.tally_idle hnone _ _
  constructor
  · rw [hsame]
    exact hs.numbered
  · rw [hsame]
    intro id hid
    obtain ⟨hposition, hplaced', hstaked', hcharged', hclaims'⟩ := hs.unopened id hid
    exact ⟨hposition, fun p => (hplaced id p).trans (hplaced' p), fun token =>
      (hstaked id token).trans (hstaked' token),
      fun token => (hcharged id token).trans (hcharged' token), fun p => (hclaims id p).trans (hclaims' p)⟩
  · rw [hsame]
    intro id m hm
    have hb := hs.books id m hm
    refine ⟨hb.yes, hb.no, fun token => ?_, fun token => ?_, hb.stake, fun q pos hq => ?_, hb.unclaimed,
      fun hresolved q pos hq hclaimed hdue r pos' hr => ?_, fun q => (hclaims id q).trans (hb.claims q)⟩
    · simp only [hplaced, hstaked]
      exact hb.staked token
    · simp only [hplaced, hcharged]
      exact hb.charged token
    · rw [hplaced]
      exact hb.placed q pos hq
    · rw [hplaced, hplaced]
      exact hb.single hresolved q pos hq hclaimed hdue r pos' hr

/-- For every market and token, what is paid and charged is within what was staked,
and every position is paid at most once. -/
structure MarketsSolvent (h : MarketHistory) : Prop where
  solvent : ∀ id token, chargedIn id token h ≤ stakedIn id token h
  once : ∀ id p, claimsOf id p h ≤ 1

/-- The markets are solvent in every token, if they are paid in the token of the stakes. -/
theorem markets_solvent {world : World} {access : Access} {bank : Ledger} {treasury : CommunityTreasury}
    (hr : Run predictionMarkets.Step (marketsStart world access bank treasury) h s)
    (hok : Throughout (fun h => predictionMarkets.WhenDone (PaysInKind h)) h) : MarketsSolvent h := by
  have hsound : MarketsSound h s := by
    refine Component.inv_throughout (I := MarketsSound) ?_ (fun _ hs hok he => hs.call hok he)
      ?_ hr hok
    · refine ⟨fun _ _ => rfl, fun id _ => ?_, fun id m hm => ?_⟩
      · exact ⟨rfl, fun _ => rfl, fun _ => rfl, fun _ => rfl, fun _ => rfl⟩
      · cases hm
    · rintro h s e s' hs hnone (rfl | ⟨-, -, hsame⟩)
      · exact hs.idle hnone rfl
      · exact hs.idle hnone hsame
  constructor
  · intro id token
    cases hm : s.store.markets.predictionMarket id with
    | none =>
      have hblank := hsound.unopened id hm
      rw [hblank.charged, hblank.staked]
    | some m => exact (hsound.books id m hm).solvent token
  · intro id p
    cases hm : s.store.markets.predictionMarket id with
    | none =>
      rw [(hsound.unopened id hm).claims]
      decide
    | some m =>
      rw [(hsound.books id m hm).claims]
      cases s.store.markets.marketPosition id p with
      | none => decide
      | some pos =>
        simp only [Option.elim_some]
        split <;> decide

end

/-- Account 2 bets 30 in the token `staked` against 60 of account 3 in token 100, wins, and claims in token 100. -/
def wonMarket (staked : Address) : List (Component.Act (List Address) MarketOp) :=
  [.call [1] (.createMarket [1] "" 300 1000100 1000200), .call [2] (.placePrediction 2 1 .yes 30 staked),
    .call [3] (.placePrediction 3 1 .no 60 100), .wait 200, .call [1] (.resolveMarket [1] 1 true),
    .call [2] (.claimPayout 2 1 100)]

def wonHistory (staked : Address) : MarketHistory :=
  predictionMarkets.record World.later (marketsStart sampleWorld .open sampleBank .empty) [] (wonMarket staked)

theorem run_wonMarket (staked : Address) :
    Run predictionMarkets.Step (marketsStart sampleWorld .open sampleBank .empty) (wonHistory staked)
      (predictionMarkets.perform World.later (marketsStart sampleWorld .open sampleBank .empty) (wonMarket staked)) :=
  Component.run_perform (C := predictionMarkets) World.later (fun _ _ _ => ⟨Nat.le_add_right _ _, rfl, rfl⟩) .nil _

theorem markets_solvent_one_token : MarketsSolvent (wonHistory 100) := by
  refine markets_solvent (run_wonMarket 100) ?_
  unfold wonHistory
  decide +kernel

/-- Account 2 stakes in a token of its own, and is paid 90 in a token of which 60 were staked. -/
theorem markets_insolvent :
    ¬ ∀ world access bank treasury h s, Run predictionMarkets.Step (marketsStart world access bank treasury) h s →
      MarketsSolvent h := by
  intro hclaim
  have hsolvent := (hclaim _ _ _ _ _ _ (run_wonMarket 666)).solvent 1 100
  exact absurd hsolvent (by decide +kernel)

end QuorumCredit
