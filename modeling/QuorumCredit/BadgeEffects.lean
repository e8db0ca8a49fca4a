import QuorumCredit.ReputationNft
/-!
# What a call does to the badges

The records and the counters as functions of owner and type, what writing them
changes, and what each call that goes through wrote.
-/

open Host Function

namespace QuorumCredit

/-! ## Writing the records -/

namespace Badges

variable (b : Badges)

/-- The badges of one type, by owner. -/
def column (badgeType : BadgeType) : Address → Option Badge := fun a => b.reputationBadge a badgeType

def stats (badgeType : BadgeType) : BadgeStats := (b.badgeStats badgeType).getD .none

def put (owner : Address) (badgeType : BadgeType) (badge : Option Badge) : Badges :=
  { b with reputationBadge := update b.reputationBadge owner (update (b.reputationBadge owner) badgeType badge) }

def setStats (badgeType : BadgeType) (stats : BadgeStats) : Badges :=
  { b with badgeStats := update b.badgeStats badgeType (some stats) }

def adjust (badgeType : BadgeType) (f : BadgeStats → BadgeStats) : Badges :=
  match b.badgeStats badgeType with
  | some stats => b.setStats badgeType (f stats)
  | .none => b

variable {b}

@[simp] theorem column_put (owner : Address) (ty : BadgeType) (badge : Option Badge) :
    (b.put owner ty badge).column ty = update (b.column ty) owner badge := by
  funext a
  by_cases ha : a = owner
  · simp [column, put, ha]
  · simp [column, put, ha]

@[simp] theorem column_put_of_ne {ty ty' : BadgeType} (h : ty' ≠ ty) (owner : Address) (badge : Option Badge) :
    (b.put owner ty badge).column ty' = b.column ty' := by
  funext a
  by_cases ha : a = owner
  · simp [column, put, ha, h]
  · simp [column, put, ha]

@[simp] theorem stats_put (owner : Address) (ty ty' : BadgeType) (badge : Option Badge) :
    (b.put owner ty badge).stats ty' = b.stats ty' := rfl

@[simp] theorem column_setStats (ty ty' : BadgeType) (st : BadgeStats) :
    (b.setStats ty st).column ty' = b.column ty' := rfl

@[simp] theorem stats_setStats (ty : BadgeType) (st : BadgeStats) : (b.setStats ty st).stats ty = st := by
  simp [stats, setStats]

@[simp] theorem stats_setStats_of_ne {ty ty' : BadgeType} (h : ty' ≠ ty) (st : BadgeStats) :
    (b.setStats ty st).stats ty' = b.stats ty' := by
  simp [stats, setStats, h]

@[simp] theorem column_adjust (ty ty' : BadgeType) (f : BadgeStats → BadgeStats) :
    (b.adjust ty f).column ty' = b.column ty' := by
  unfold adjust
  split <;> rfl

/-- Counters that are not there are zero, and a change that leaves zero alone changes nothing there. -/
theorem stats_adjust (ty : BadgeType) {f : BadgeStats → BadgeStats} (hf : f .none = .none) :
    (b.adjust ty f).stats ty = f (b.stats ty) := by
  unfold adjust
  split
  case h_1 st hst => rw [stats_setStats, stats, hst, Option.getD_some]
  case h_2 hst => rw [stats, hst, Option.getD_none, hf]

@[simp] theorem stats_adjust_of_ne {ty ty' : BadgeType} (h : ty' ≠ ty) (f : BadgeStats → BadgeStats) :
    (b.adjust ty f).stats ty' = b.stats ty' := by
  unfold adjust
  split
  case h_1 => exact stats_setStats_of_ne h _
  case h_2 => rfl

variable (b)

/-- A fresh badge, unless the owner has one. -/
def mint (now : Nat) (owner : Address) (ty : BadgeType) : Badges :=
  match b.reputationBadge owner ty with
  | some _ => b
  | .none =>
    (b.put owner ty (some { badgeType := ty, owner, mintedAt := now, staked := false, listedForSale := false
                            listingPrice := 0 })).setStats ty
      { b.stats ty with totalMinted := (b.stats ty).totalMinted + 1 }

end Badges

/-- The types an address has earned. -/
def BadgeMilestones.earned (m : BadgeMilestones) (a : Address) : List BadgeType :=
  (if 1 ≤ m.repaymentCount a then [.firstLoan] else []) ++
  (if 10 ≤ m.repaymentCount a then [.tenLoans] else []) ++
  (if centurionScoreThreshold ≤ m.reputationScore a then [.centurion] else []) ++
  (if topVoucherMinBacked ≤ m.voucherBackedCount a then [.topVoucher] else []) ++
  (if trustPillarMinBacked ≤ m.voucherBackedCount a then [.trustPillar] else [])

/-! ## What a call does -/

/-- What a call that goes through found and did. -/
inductive BadgeEffect (w : World) (s t : BadgeStore) : BadgeOp → Prop
  | evaluated {a} : t.badges = (s.milestones.earned a).foldl (fun b ty => b.mint w.now a ty) s.badges →
      BadgeEffect w s t (.evaluateAndMintBadges a)
  | stakedBefore {owner ty} : t.badges = s.badges → BadgeEffect w s t (.stakeBadge owner ty)
  | staked {owner ty} {badge : Badge} : s.badges.reputationBadge owner ty = some badge →
      badge.listedForSale = false → badge.staked = false →
      t.badges = (s.badges.put owner ty (some { badge with staked := true })).setStats ty
        { s.badges.stats ty with totalStaked := (s.badges.stats ty).totalStaked + 1 } →
      BadgeEffect w s t (.stakeBadge owner ty)
  | unstakedBefore {owner ty} : t.badges = s.badges → BadgeEffect w s t (.unstakeBadge owner ty)
  | unstaked {owner ty} {badge : Badge} : s.badges.reputationBadge owner ty = some badge → badge.staked = true →
      t.badges = (s.badges.put owner ty (some { badge with staked := false })).adjust ty
        (fun st => { st with totalStaked := st.totalStaked - 1 }) →
      BadgeEffect w s t (.unstakeBadge owner ty)
  | listed {owner ty price} {badge : Badge} : s.badges.reputationBadge owner ty = some badge →
      badge.staked = false → 0 < price →
      t.badges = (s.badges.put owner ty (some { badge with listedForSale := true, listingPrice := price })).setStats ty
        { s.badges.stats ty with totalListed := (s.badges.stats ty).totalListed + 1 } →
      BadgeEffect w s t (.listBadgeForSale owner ty price)
  | delistedBefore {owner ty} : t.badges = s.badges → BadgeEffect w s t (.delistBadge owner ty)
  | delisted {owner ty} {badge : Badge} : s.badges.reputationBadge owner ty = some badge →
      badge.listedForSale = true →
      t.badges = (s.badges.put owner ty (some { badge with listedForSale := false, listingPrice := 0 })).adjust ty
        (fun st => { st with totalListed := st.totalListed - 1 }) →
      BadgeEffect w s t (.delistBadge owner ty)
  | sold {buyer seller ty token paid} {badge : Badge} : s.badges.reputationBadge seller ty = some badge →
      badge.listedForSale = true → badge.listingPrice ≤ paid →
      t.bank = s.bank.move token buyer seller paid →
      t.badges = ((s.badges.put seller ty .none).put buyer ty
        (some { badgeType := ty, owner := buyer, mintedAt := badge.mintedAt, staked := false, listedForSale := false
                listingPrice := 0 })).adjust ty (fun st => { st with totalListed := st.totalListed - 1 }) →
      BadgeEffect w s t (.purchaseBadge buyer seller ty token paid)

section

variable {ctx : Context}

theorem yields_mintBadge (owner : Address) (ty : BadgeType) (b : Badges) :
    Yields (mintBadge owner ty) ctx b fun _ b' => b' = b.mint ctx.now owner ty := by
  simp only [mintBadge, yields_steps]
  cases hheld : b.reputationBadge owner ty with
  | some badge => simp [Badges.mint, hheld]
  | none =>
    simp only [setBadge, setBadgeStats, yields_steps, yields_u64]
    intro _
    simp only [Badges.mint, hheld]
    rfl

theorem yields_mintIfEarned (earned : Bool) (owner : Address) (ty : BadgeType) (b : Badges) :
    Yields (mintIfEarned earned owner ty) ctx b fun _ b' =>
      b' = if earned = true then b.mint ctx.now owner ty else b := by
  cases earned with
  | true => exact yields_mintBadge owner ty b
  | false =>
    rw [mintIfEarned, if_neg Bool.false_ne_true, yields_pure]
    rfl

theorem foldl_if {α β : Type} (f : β → α → β) (b : β) (c : Prop) [Decidable c] (a : α) :
    (if c then [a] else []).foldl f b = if c then f b a else b := by
  split <;> rfl

theorem yields_adjustBadgeStats (ty : BadgeType) (f : BadgeStats → BadgeStats) (b : Badges) :
    Yields (adjustBadgeStats ty f) ctx b fun _ b' => b' = b.adjust ty f := by
  simp only [adjustBadgeStats, yields_steps]
  cases hst : b.badgeStats ty with
  | some st =>
    simp only [setBadgeStats, yields_alter, Badges.adjust, hst]
    rfl
  | none => simp [Badges.adjust, hst]

theorem yields_badgeOp (op : BadgeOp) (s : BadgeStore) :
    Yields op.run ctx s fun _ t => BadgeEffect ctx.toWorld s t op := by
  cases op with
  | evaluateAndMintBadges a =>
    simp only [BadgeOp.run, evaluateAndMintBadges, yields_parts, yields_steps]
    refine (yields_mintIfEarned _ a _ _).mono ?_
    rintro _ _ rfl
    refine (yields_mintIfEarned _ a _ _).mono ?_
    rintro _ _ rfl
    refine (yields_mintIfEarned _ a _ _).mono ?_
    rintro _ _ rfl
    refine (yields_mintIfEarned _ a _ _).mono ?_
    rintro _ _ rfl
    refine (yields_mintIfEarned _ a _ _).mono ?_
    rintro _ _ rfl
    refine .evaluated ?_
    simp only [BadgeMilestones.earned, List.foldl_append, foldl_if, decide_eq_true_eq]
    rfl
  | stakeBadge owner ty =>
    simp only [BadgeOp.run, stakeBadge, loadBadge, setBadge, setBadgeStats, yields_parts, yields_steps,
      yields_requireAuth, yields_ite, yields_u64]
    refine (yields_true _ _ _).mono fun _ access _ => ?_
    intro _ badge hbadge hlisted
    constructor
    · intro _
      exact .stakedBefore rfl
    · intro hstaked _
      exact .staked hbadge hlisted (Bool.eq_false_iff.2 hstaked) rfl
  | unstakeBadge owner ty =>
    simp only [BadgeOp.run, unstakeBadge, loadBadge, setBadge, yields_parts, yields_steps, yields_requireAuth,
      yields_ite]
    refine (yields_true _ _ _).mono fun _ access _ => ?_
    intro _ badge hbadge
    constructor
    · intro _
      exact .unstakedBefore rfl
    · intro hstaked
      refine (yields_adjustBadgeStats ty _ _).mono ?_
      rintro _ _ rfl
      exact .unstaked hbadge (by simpa using hstaked) rfl
  | listBadgeForSale owner ty price =>
    simp only [BadgeOp.run, listBadgeForSale, loadBadge, setBadge, setBadgeStats, yields_parts, yields_steps,
      yields_requireAuth, yields_u64]
    refine (yields_true _ _ _).mono fun _ access _ => ?_
    intro _ hprice badge hbadge hstaked _
    exact .listed hbadge hstaked hprice rfl
  | delistBadge owner ty =>
    simp only [BadgeOp.run, delistBadge, loadBadge, setBadge, yields_parts, yields_steps, yields_requireAuth,
      yields_ite]
    refine (yields_true _ _ _).mono fun _ access _ => ?_
    intro _ badge hbadge
    constructor
    · intro _
      exact .delistedBefore rfl
    · intro hlisted
      refine (yields_adjustBadgeStats ty _ _).mono ?_
      rintro _ _ rfl
      exact .delisted hbadge (by simpa using hlisted) rfl
  | purchaseBadge buyer seller ty token paid =>
    simp only [BadgeOp.run, purchaseBadge, loadBadge, setBadge, yields_parts, yields_steps, yields_requireAuth,
      Bank.yields_transfer]
    refine (yields_true _ _ _).mono fun _ access _ => ?_
    intro _ badge hbadge hlisted hpaid _ _
    refine (yields_adjustBadgeStats ty _ _).mono ?_
    rintro _ _ rfl
    exact .sold hbadge hlisted hpaid rfl rfl

end

theorem badge_of_exec {s : Situated World BadgeStore} {signers : List Address} {op : BadgeOp} {t : BadgeStore}
    (he : reputationBadges.exec s signers op = some t) : BadgeEffect s.world s.store t op :=
  Component.exec_yields (C := reputationBadges) (yields_badgeOp op s.store) he

end QuorumCredit
