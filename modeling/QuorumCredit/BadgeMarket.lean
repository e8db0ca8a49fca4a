import QuorumCredit.BadgeEffects
import QuorumCredit.Host.Occurrences
import QuorumCredit.Host.Totals
/-!
# Badges in trade

The counters of a type agree with its stored badges, nobody earns a badge twice,
and a sale delivers, exactly as long as no badge is minted again after it was sold,
none is listed twice, and a buyer other than the seller, who has no badge of the
type, pays in an allowed token.
-/

open Host Function

namespace QuorumCredit

/-! ## Counting -/

def heldOf (e : Option Badge) : Int := if e.isSome then 1 else 0

def stakedOf : Option Badge → Int
  | some badge => if badge.staked = true then 1 else 0
  | .none => 0

def listedOf : Option Badge → Int
  | some badge => if badge.listedForSale = true then 1 else 0
  | .none => 0

/-- As many badges are stored, staked and listed as the numbers say. -/
structure ColumnCounted (column : Address → Option Badge) (minted staked listed : Int) : Prop where
  minted : Totals (fun a => heldOf (column a)) minted
  staked : Totals (fun a => stakedOf (column a)) staked
  listed : Totals (fun a => listedOf (column a)) listed

theorem stakedOf_nonneg (e : Option Badge) : 0 ≤ stakedOf e := by
  cases e with
  | none => exact le_refl 0
  | some badge =>
    simp only [stakedOf]
    split <;> decide

theorem listedOf_nonneg (e : Option Badge) : 0 ≤ listedOf e := by
  cases e with
  | none => exact le_refl 0
  | some badge =>
    simp only [listedOf]
    split <;> decide

namespace ColumnCounted

variable {column : Address → Option Badge} {m s l : Int}

theorem empty : ColumnCounted (fun _ => .none) 0 0 0 := ⟨.zero, .zero, .zero⟩

/-- Writing one badge. -/
theorem put (h : ColumnCounted column m s l) (a : Address) (e : Option Badge) :
    ColumnCounted (update column a e) (m + heldOf e - heldOf (column a)) (s + stakedOf e - stakedOf (column a))
      (l + listedOf e - listedOf (column a)) :=
  ⟨h.minted.update_entry a e, h.staked.update_entry a e, h.listed.update_entry a e⟩

theorem congr (h : ColumnCounted column m s l) {m' s' l' : Int} (hm : m' = m) (hs : s' = s) (hl : l' = l) :
    ColumnCounted column m' s' l' := by
  rwa [hm, hs, hl]

theorem listed_eq (h : ColumnCounted column m s l) {m' s' l' : Int} (h' : ColumnCounted column m' s' l') : l = l' :=
  h.listed.sum.trans h'.listed.sum.symm

end ColumnCounted

/-- The counters of the type are those of its column. -/
def Badges.CountedOf (b : Badges) (ty : BadgeType) : Prop :=
  ColumnCounted (b.column ty) (b.stats ty).totalMinted (b.stats ty).totalStaked (b.stats ty).totalListed

/-- The counters agree, no badge is both staked and listed, and a listed one has a price. -/
structure BadgeBooks (b : Badges) : Prop where
  counted : ∀ ty, b.CountedOf ty
  apart : ∀ a ty badge, b.column ty a = some badge → ¬ (badge.staked = true ∧ badge.listedForSale = true)
  priced : ∀ a ty badge, b.column ty a = some badge → badge.listedForSale = true → 0 < badge.listingPrice

theorem badgeBooks_empty : BadgeBooks .empty where
  counted _ := ColumnCounted.empty
  apart _ _ _ h := by cases h
  priced _ _ _ h := by cases h

section

variable {b b' : Badges} {ty : BadgeType} {owner : Address}

/-- A badge that may be stored: not both staked and listed, and with a price if listed. -/
def Badge.Storable (badge : Badge) : Prop :=
  ¬ (badge.staked = true ∧ badge.listedForSale = true) ∧ (badge.listedForSale = true → 0 < badge.listingPrice)

/-- Only the records of one type change. -/
def SameBut (b b' : Badges) (ty : BadgeType) : Prop :=
  ∀ ty', ty' ≠ ty → b'.column ty' = b.column ty' ∧ b'.stats ty' = b.stats ty'

theorem BadgeBooks.storable (h : BadgeBooks b) {a : Address} {badge : Badge} (hstored : b.column ty a = some badge) :
    badge.Storable :=
  ⟨h.apart a ty badge hstored, h.priced a ty badge hstored⟩

theorem BadgeBooks.written (h : BadgeBooks b) (hsame : SameBut b b' ty) (hcounted : b'.CountedOf ty)
    (hsound : ∀ a badge, b'.column ty a = some badge → badge.Storable) : BadgeBooks b' := by
  have hstorable : ∀ a ty' badge, b'.column ty' a = some badge → badge.Storable := by
    intro a ty' badge hstored
    by_cases hty : ty' = ty
    · exact hsound a badge (hty ▸ hstored)
    · rw [(hsame ty' hty).1] at hstored
      exact h.storable hstored
  refine ⟨fun ty' => ?_, fun a ty' badge hstored => (hstorable a ty' badge hstored).1,
    fun a ty' badge hstored => (hstorable a ty' badge hstored).2⟩
  by_cases hty : ty' = ty
  · rwa [hty]
  · obtain ⟨hcolumn, hstats⟩ := hsame ty' hty
    unfold Badges.CountedOf
    rw [hcolumn, hstats]
    exact h.counted ty'

/-- The badges of a column after one was written. -/
theorem BadgeBooks.storable_update (h : BadgeBooks b) {e : Option Badge} (he : ∀ badge, e = some badge → badge.Storable)
    (a : Address) (badge : Badge) (hstored : update (b.column ty) owner e a = some badge) : badge.Storable := by
  by_cases ha : a = owner
  · rw [ha, update_self] at hstored
    exact he badge hstored
  · rw [update_of_ne ha] at hstored
    exact h.storable hstored

theorem sameBut_setStats (b : Badges) (ty : BadgeType) (owner : Address) (e : Option Badge) (st : BadgeStats) :
    SameBut b ((b.put owner ty e).setStats ty st) ty := fun ty' hne => by simp [hne]

theorem sameBut_adjust (b : Badges) (ty : BadgeType) (owner : Address) (e : Option Badge)
    (f : BadgeStats → BadgeStats) : SameBut b ((b.put owner ty e).adjust ty f) ty := fun ty' hne => by simp [hne]

/-- A badge is written, and the counters of its type follow. -/
theorem BadgeBooks.setStats (h : BadgeBooks b) {e : Option Badge} {st : BadgeStats}
    (he : ∀ badge, e = some badge → badge.Storable)
    (hm : (st.totalMinted : Int) = (b.stats ty).totalMinted + heldOf e - heldOf (b.column ty owner))
    (hs : (st.totalStaked : Int) = (b.stats ty).totalStaked + stakedOf e - stakedOf (b.column ty owner))
    (hl : (st.totalListed : Int) = (b.stats ty).totalListed + listedOf e - listedOf (b.column ty owner)) :
    BadgeBooks ((b.put owner ty e).setStats ty st) := by
  refine h.written (sameBut_setStats b ty owner e st) ?_ ?_
  · unfold Badges.CountedOf
    simp only [Badges.column_setStats, Badges.column_put, Badges.stats_setStats]
    exact ((h.counted ty).put owner e).congr hm hs hl
  · rw [Badges.column_setStats, Badges.column_put]
    exact h.storable_update he

/-- The same where the counters are changed only if they are there. -/
theorem BadgeBooks.adjust (h : BadgeBooks b) {e : Option Badge} {f : BadgeStats → BadgeStats} (hf : f .none = .none)
    (he : ∀ badge, e = some badge → badge.Storable)
    (hm : ((f (b.stats ty)).totalMinted : Int) = (b.stats ty).totalMinted + heldOf e - heldOf (b.column ty owner))
    (hs : ((f (b.stats ty)).totalStaked : Int) =
      (b.stats ty).totalStaked + stakedOf e - stakedOf (b.column ty owner))
    (hl : ((f (b.stats ty)).totalListed : Int) =
      (b.stats ty).totalListed + listedOf e - listedOf (b.column ty owner)) :
    BadgeBooks ((b.put owner ty e).adjust ty f) := by
  refine h.written (sameBut_adjust b ty owner e f) ?_ ?_
  · unfold Badges.CountedOf
    simp only [Badges.column_adjust, Badges.column_put, Badges.stats_adjust ty hf, Badges.stats_put]
    exact ((h.counted ty).put owner e).congr hm hs hl
  · rw [Badges.column_adjust, Badges.column_put]
    exact h.storable_update he

/-! ## Minting -/

theorem mint_of_held {badge : Badge} (hheld : b.column ty owner = some badge) (now : Nat) :
    b.mint now owner ty = b := by
  change b.reputationBadge owner ty = some badge at hheld
  simp only [Badges.mint, hheld]

theorem BadgeBooks.mint (h : BadgeBooks b) (now : Nat) (owner : Address) (ty : BadgeType) :
    BadgeBooks (b.mint now owner ty) := by
  cases hheld : b.column ty owner with
  | some badge =>
    rw [mint_of_held hheld]
    exact h
  | none =>
    have hnone : b.reputationBadge owner ty = none := hheld
    simp only [Badges.mint, hnone]
    refine h.setStats ?_ ?_ ?_ ?_
    · rintro badge hbadge
      cases hbadge
      exact ⟨fun hboth => (by cases hboth.1), fun hlisted => (by cases hlisted)⟩
    · rw [hheld]
      simp [heldOf]
    · rw [hheld]
      simp [stakedOf]
    · rw [hheld]
      simp [listedOf]

theorem BadgeBooks.mintAll (h : BadgeBooks b) (now : Nat) (owner : Address) (types : List BadgeType) :
    BadgeBooks (types.foldl (fun b ty => b.mint now owner ty) b) := by
  induction types generalizing b with
  | nil => exact h
  | cons ty types ih => exact ih (h.mint now owner ty)

/-- Minting gives the owner the badges it lacks, and nobody else anything. -/
theorem isSome_mintAll (now : Nat) (owner : Address) (types : List BadgeType) (a : Address) (ty : BadgeType) :
    ((types.foldl (fun b ty => b.mint now owner ty) b).column ty a).isSome = true ↔
      (b.column ty a).isSome = true ∨ a = owner ∧ ty ∈ types := by
  induction types generalizing b with
  | nil => simp
  | cons ty' types ih =>
    have hstep : ((b.mint now owner ty').column ty a).isSome = true ↔
        (b.column ty a).isSome = true ∨ a = owner ∧ ty = ty' := by
      cases hheld : b.column ty' owner with
      | some badge =>
        rw [mint_of_held hheld]
        constructor
        · exact .inl
        · rintro (hsome | ⟨rfl, rfl⟩)
          · exact hsome
          · rw [hheld]
            rfl
      | none =>
        have hnone : b.reputationBadge owner ty' = none := hheld
        simp only [Badges.mint, hnone, Badges.column_setStats]
        by_cases hty : ty = ty'
        · rw [hty, Badges.column_put]
          by_cases ha : a = owner
          · simp [ha]
          · simp [ha]
        · rw [Badges.column_put_of_ne hty]
          simp [hty]
    rw [List.foldl_cons, ih, hstep, List.mem_cons, or_assoc, and_or_left]

end

/-! ## Trading -/

section

variable {w : World} {s t : BadgeStore} {op : BadgeOp}

/-- A badge that is staked or listed is counted among those of its type. -/
theorem BadgeBooks.counted_pos {b : Badges} (h : BadgeBooks b) {ty : BadgeType} {owner : Address} {badge : Badge}
    (hstored : b.column ty owner = some badge) :
    (badge.staked = true → 1 ≤ (b.stats ty).totalStaked) ∧
      (badge.listedForSale = true → 1 ≤ (b.stats ty).totalListed) := by
  constructor
  · intro hstaked
    have hle := (h.counted ty).staked.entry_le (fun a => stakedOf_nonneg _) owner
    simp only [hstored, stakedOf, if_pos hstaked] at hle
    omega
  · intro hlisted
    have hle := (h.counted ty).listed.entry_le (fun a => listedOf_nonneg _) owner
    simp only [hstored, listedOf, if_pos hlisted] at hle
    omega

/-- A listing is new, and a sale is to somebody else without a badge of the type. -/
def BadgeOp.Trades (b : Badges) : BadgeOp → Prop
  | .listBadgeForSale owner ty _ => ∀ badge ∈ b.column ty owner, badge.listedForSale = false
  | .purchaseBadge buyer seller ty _ _ => buyer ≠ seller ∧ b.column ty buyer = none
  | _ => True

theorem BadgeEffect.books (he : BadgeEffect w s t op) (h : BadgeBooks s.badges) (hok : op.Trades s.badges) :
    BadgeBooks t.badges := by
  cases he with
  | @evaluated a hbadges =>
    rw [hbadges]
    exact h.mintAll w.now a _
  | stakedBefore hbadges | unstakedBefore hbadges | delistedBefore hbadges =>
    rw [hbadges]
    exact h
  | @staked owner ty badge hstored hlisted hstaked hbadges =>
    have hcolumn : s.badges.column ty owner = some badge := hstored
    rw [hbadges]
    refine h.setStats ?_ ?_ ?_ ?_
    · rintro _ ⟨⟩
      exact ⟨fun hboth => absurd (hlisted.symm.trans hboth.2) (by decide), (h.storable hcolumn).2⟩
    · simp [heldOf, hcolumn]
    · simp [stakedOf, hcolumn, hstaked]
    · simp [listedOf, hcolumn, hlisted]
  | @unstaked owner ty badge hstored hstaked hbadges =>
    have hcolumn : s.badges.column ty owner = some badge := hstored
    have hpos := (h.counted_pos hcolumn).1 hstaked
    rw [hbadges]
    refine h.adjust rfl ?_ ?_ ?_ ?_
    · rintro _ ⟨⟩
      exact ⟨fun hboth => (by cases hboth.1), (h.storable hcolumn).2⟩
    · simp [heldOf, hcolumn]
    · simp only [stakedOf, hcolumn, if_pos hstaked]
      simp
      omega
    · simp [listedOf, hcolumn]
  | @listed owner ty price badge hstored hstaked hprice hbadges =>
    have hcolumn : s.badges.column ty owner = some badge := hstored
    have hnew : badge.listedForSale = false := hok badge hcolumn
    rw [hbadges]
    refine h.setStats ?_ ?_ ?_ ?_
    · rintro _ ⟨⟩
      exact ⟨fun hboth => absurd (hstaked.symm.trans hboth.1) (by decide), fun _ => hprice⟩
    · simp [heldOf, hcolumn]
    · simp [stakedOf, hcolumn, hstaked]
    · simp [listedOf, hcolumn, hnew]
  | @delisted owner ty badge hstored hlisted hbadges =>
    have hcolumn : s.badges.column ty owner = some badge := hstored
    have hpos := (h.counted_pos hcolumn).2 hlisted
    rw [hbadges]
    refine h.adjust rfl ?_ ?_ ?_ ?_
    · rintro _ ⟨⟩
      exact ⟨fun hboth => (by cases hboth.2), fun hlisted => (by cases hlisted)⟩
    · simp [heldOf, hcolumn]
    · simp [stakedOf, hcolumn]
    · simp only [listedOf, hcolumn, if_pos hlisted]
      simp
      omega
  | @sold buyer seller ty token paid badge hstored hlisted hpaid hbank hbadges =>
    obtain ⟨hne, hlacks⟩ := hok
    have hcolumn : s.badges.column ty seller = some badge := hstored
    have hpos := (h.counted_pos hcolumn).2 hlisted
    have hunstaked : badge.staked = false :=
      Bool.eq_false_iff.2 fun hstaked => (h.storable hcolumn).1 ⟨hstaked, hlisted⟩
    have hlacks' : update (s.badges.column ty) seller none buyer = none := by rw [update_of_ne hne, hlacks]
    rw [hbadges]
    refine @BadgeBooks.written s.badges _ ty h (fun ty' hty => by simp [hty]) ?_ ?_
    · unfold Badges.CountedOf
      simp only [Badges.column_adjust, Badges.column_put, Badges.stats_put,
        Badges.stats_adjust ty (f := fun st => { st with totalListed := st.totalListed - 1 }) rfl]
      refine (((h.counted ty).put seller none).put buyer _).congr ?_ ?_ ?_
      · simp [heldOf, hcolumn, hlacks']
      · simp [stakedOf, hcolumn, hlacks', hunstaked]
      · simp only [listedOf, hcolumn, hlacks', if_pos hlisted]
        simp
        omega
    · intro a badge' hstored'
      simp only [Badges.column_adjust, Badges.column_put] at hstored'
      by_cases ha : a = buyer
      · rw [ha, update_self] at hstored'
        cases hstored'
        exact ⟨fun hboth => (by cases hboth.1), fun hlisted => (by cases hlisted)⟩
      · rw [update_of_ne ha] at hstored'
        exact h.storable_update (fun _ hnone => by cases hnone) a badge' hstored'

end

/-! ## Runs -/

/-- How often the address was minted a badge of the type. -/
def mintsOf (a : Address) (ty : BadgeType) : BadgeHistory → Int :=
  reputationBadges.tally fun s op t =>
    if op = .evaluateAndMintBadges a ∧ (s.store.badges.column ty a).isSome = false ∧
      (t.badges.column ty a).isSome = true then 1 else 0

/-- The token is one the contract allows. -/
def World.TakesToken (w : World) (token : Address) : Prop := token = w.config.token ∨ token ∈ w.config.allowedTokens

/-- A purchase takes the badge from the seller to the buyer, who has none of the
type, and pays the seller at least its price in an allowed token. -/
def Delivers (s : Situated World BadgeStore) (t : BadgeStore) : BadgeOp → Prop
  | .purchaseBadge buyer seller ty token _ =>
    ∃ badge badge', s.store.badges.column ty seller = some badge ∧ s.store.badges.column ty buyer = none ∧
      t.badges.column ty seller = none ∧ t.badges.column ty buyer = some badge' ∧ badge'.mintedAt = badge.mintedAt ∧
        s.world.TakesToken token ∧ s.store.bank.balance token seller + badge.listingPrice ≤ t.bank.balance token seller
  | _ => True

/-- The counters agree, no badge is both staked and listed, nobody is minted a badge
of a type twice, and every purchase delivers. -/
structure BadgesKept (h : BadgeHistory) (s : Situated World BadgeStore) : Prop where
  counted : ∀ ty, s.store.badges.CountedOf ty
  apart : ∀ a ty badge, s.store.badges.column ty a = some badge →
    ¬ (badge.staked = true ∧ badge.listedForSale = true)
  once : ∀ a ty, mintsOf a ty h ≤ 1
  delivered : ∀ e ∈ h, ∀ d ∈ reputationBadges.done e.1 e.2, Delivers e.1 d.2 d.1

/-- No badge is minted where one was before, none is listed twice, and it is sold to
somebody else, who has none of the type, for an allowed token. -/
def TradesFairly (h : BadgeHistory) (s : Situated World BadgeStore) : BadgeOp → Prop
  | .evaluateAndMintBadges a => ∀ ty ∈ s.store.milestones.earned a, s.store.badges.column ty a = none →
      mintsOf a ty h = 0
  | .listBadgeForSale owner ty _ => ∀ badge ∈ s.store.badges.column ty owner, badge.listedForSale = false
  | .purchaseBadge buyer seller ty token _ =>
    buyer ≠ seller ∧ s.store.badges.column ty buyer = none ∧ s.world.TakesToken token
  | _ => True

instance World.TakesToken.decidable (w : World) (token : Address) : Decidable (w.TakesToken token) :=
  inferInstanceAs (Decidable (token = w.config.token ∨ token ∈ w.config.allowedTokens))

instance TradesFairly.decidable (h : BadgeHistory) (s : Situated World BadgeStore) (op : BadgeOp) :
    Decidable (TradesFairly h s op) := by
  unfold TradesFairly
  split <;> infer_instance

/-- What the runs keep. -/
structure BadgesSound (h : BadgeHistory) (s : Situated World BadgeStore) : Prop where
  books : BadgeBooks s.store.badges
  mints : ∀ a ty, 0 ≤ mintsOf a ty h ∧ mintsOf a ty h ≤ 1
  delivered : ∀ e ∈ h, ∀ d ∈ reputationBadges.done e.1 e.2, Delivers e.1 d.2 d.1

section

variable {s : Situated World BadgeStore} {h : BadgeHistory} {signers : List Address} {op : BadgeOp} {t : BadgeStore}

theorem BadgesSound.kept (hs : BadgesSound h s) : BadgesKept h s :=
  ⟨hs.books.counted, hs.books.apart, fun a ty => (hs.mints a ty).2, hs.delivered⟩

theorem TradesFairly.trades (hok : TradesFairly h s op) : op.Trades s.store.badges := by
  cases op with
  | listBadgeForSale owner ty price => exact hok
  | purchaseBadge buyer seller ty token paid => exact ⟨hok.1, hok.2.1⟩
  | evaluateAndMintBadges => trivial
  | stakeBadge => trivial
  | unstakeBadge => trivial
  | delistBadge => trivial

theorem mintsOf_call (he : reputationBadges.exec s signers op = some t) (a : Address) (ty : BadgeType) :
    mintsOf a ty ((s, .call signers op) :: h) = mintsOf a ty h +
      if op = .evaluateAndMintBadges a ∧ (s.store.badges.column ty a).isSome = false ∧
        (t.badges.column ty a).isSome = true then 1 else 0 :=
  Component.tally_call he _ h

/-- Whoever is minted a badge has earned its type. -/
theorem earned_of_minted {a : Address} {ty : BadgeType}
    (he : reputationBadges.exec s signers (.evaluateAndMintBadges a) = some t)
    (hbefore : (s.store.badges.column ty a).isSome = false) :
    (t.badges.column ty a).isSome = true ↔ ty ∈ s.store.milestones.earned a := by
  cases badge_of_exec he with
  | evaluated hbadges =>
    rw [hbadges, isSome_mintAll, hbefore]
    simp

theorem delivers_of_exec (he : reputationBadges.exec s signers op = some t) (hok : TradesFairly h s op) :
    Delivers s t op := by
  cases badge_of_exec he with
  | evaluated | stakedBefore | staked | unstakedBefore | unstaked | listed | delistedBefore | delisted => trivial
  | @sold buyer seller ty token paid badge hstored hlisted hpaid hbank hbadges =>
    obtain ⟨hne, hlacks, hallowed⟩ := hok
    refine ⟨badge, ⟨ty, buyer, badge.mintedAt, false, false, 0⟩, hstored, hlacks, ?_, ?_, rfl, hallowed, ?_⟩
    · rw [hbadges, Badges.column_adjust, Badges.column_put, update_of_ne (Ne.symm hne), Badges.column_put,
        update_self]
    · rw [hbadges, Badges.column_adjust, Badges.column_put, update_self]
    · rw [hbank]
      simp only [Bank.move, Bank.credit, true_and, and_self, if_true, if_neg (Ne.symm hne)]
      omega

theorem BadgesSound.call (hs : BadgesSound h s) (hok : TradesFairly h s op)
    (he : reputationBadges.exec s signers op = some t) :
    BadgesSound ((s, .call signers op) :: h) ⟨s.world, t⟩ := by
  refine ⟨(badge_of_exec he).books hs.books hok.trades, fun a ty => ?_, List.forall_mem_cons.2 ⟨fun d hd => ?_,
    hs.delivered⟩⟩
  · have hbefore := hs.mints a ty
    rw [mintsOf_call he]
    split
    case isTrue hmint =>
      obtain ⟨rfl, hlacked, hgot⟩ := hmint
      have hnone : s.store.badges.column ty a = none := by simpa using hlacked
      have hzero := hok ty ((earned_of_minted he hlacked).1 hgot) hnone
      omega
    case isFalse => omega
  · rw [Component.done_call he] at hd
    cases hd
    exact delivers_of_exec he hok

theorem BadgesSound.idle (hs : BadgesSound h s) {e : Event World (List Address) BadgeStore BadgeOp}
    {s' : Situated World BadgeStore} (hnone : reputationBadges.done s e = none)
    (hs' : s' = s ∨ reputationBadges.drift s.world s.store s'.world s'.store) : BadgesSound ((s, e) :: h) s' := by
  refine ⟨?_, fun a ty => ?_, List.forall_mem_cons.2 ⟨fun d hd => ?_, hs.delivered⟩⟩
  · rcases hs' with rfl | ⟨-, hsame⟩
    · exact hs.books
    · rw [hsame]
      exact hs.books
  · rw [mintsOf, Component.tally_idle hnone]
    exact hs.mints a ty
  · rw [hnone] at hd
    cases hd

/-- A call after which all is as it should be was fair. -/
theorem fair_of_kept (hs : BadgesSound h s) (he : reputationBadges.exec s signers op = some t)
    (hk : BadgesKept ((s, .call signers op) :: h) ⟨s.world, t⟩) : TradesFairly h s op := by
  cases op with
  | stakeBadge => trivial
  | unstakeBadge => trivial
  | delistBadge => trivial
  | evaluateAndMintBadges a =>
    intro ty hearned hnone
    have hlacked : (s.store.badges.column ty a).isSome = false := by rw [hnone]; rfl
    have honce := hk.once a ty
    rw [mintsOf_call he, if_pos ⟨rfl, hlacked, (earned_of_minted he hlacked).2 hearned⟩] at honce
    have hpos := (hs.mints a ty).1
    omega
  | listBadgeForSale owner ty price =>
    intro badge hstored
    have hafter := hk.counted ty
    cases badge_of_exec he with
    | @listed _ _ _ badge' hstored' hstaked hprice hbadges =>
      have hsame : some badge' = some badge := hstored'.symm.trans hstored
      cases hsame
      have hcolumn : s.store.badges.column ty owner = some badge := hstored
      simp only [hbadges, Badges.CountedOf, Badges.column_setStats, Badges.column_put, Badges.stats_setStats] at hafter
      have hlisted := ((hs.books.counted ty).put owner
        (some { badge with listedForSale := true, listingPrice := price })).listed_eq hafter
      by_contra hbefore
      simp [listedOf, hcolumn, hbefore] at hlisted
  | purchaseBadge buyer seller ty token paid =>
    obtain ⟨badge, badge', hseller, hbuyer, -, -, -, hallowed, -⟩ :=
      hk.delivered _ List.mem_cons_self _ (Component.done_call he)
    refine ⟨?_, hbuyer, hallowed⟩
    rintro rfl
    rw [hseller] at hbuyer
    cases hbuyer

end

/-- A run keeps the badges exactly if all its calls trade fairly. -/
theorem badges_kept_iff {world : World} {access : Access} {bank : Ledger} {milestones : BadgeMilestones} {h s}
    (hr : Run reputationBadges.Step (badgeStart world access bank milestones) h s) :
    Always BadgesKept h s ↔ Throughout (fun h => reputationBadges.WhenDone (TradesFairly h)) h :=
  Component.always_iff_of_inv (I := BadgesSound)
    ⟨badgeBooks_empty, fun _ _ => ⟨le_refl 0, Int.zero_le_ofNat 1⟩, List.forall_mem_nil _⟩
    (fun hs hok he => hs.call hok he) (fun hs hnone hs' => hs.idle hnone hs') (fun hs => hs.kept)
    (fun hs he hk => fair_of_kept hs he hk) hr

/-! ## Two runs -/

/-- Account 2 has repaid a loan. -/
def sampleMilestones : BadgeMilestones :=
  { repaymentCount := fun a => if a = 2 then 1 else 0, reputationScore := fun _ => 0, voucherBackedCount := fun _ => 0 }

def sampleBadges : Situated World BadgeStore := badgeStart sampleWorld start.store.access sampleBank sampleMilestones

/-- It sells its badge to account 3. -/
def soldBadge : List (List Address × BadgeOp) :=
  [([2], .evaluateAndMintBadges 2), ([2], .listBadgeForSale 2 .firstLoan 500),
    ([3], .purchaseBadge 3 2 .firstLoan 100 500)]

theorem badges_kept_sold :
    Always BadgesKept (reputationBadges.trace sampleBadges [] soldBadge)
        (reputationBadges.play sampleBadges soldBadge) ∧
      ((reputationBadges.play sampleBadges soldBadge).store.badges.column .firstLoan 3).isSome = true := by
  constructor
  · refine (badges_kept_iff (Component.run_play reputationBadges .nil soldBadge)).2 ?_
    decide +kernel
  · decide +kernel

/-- The badge is minted again, and the second one is bought by the holder of the first. -/
def soldTwice : List (List Address × BadgeOp) :=
  soldBadge ++ [([2], .evaluateAndMintBadges 2), ([2], .listBadgeForSale 2 .firstLoan 500)]

theorem badges_lost :
    ¬ ∀ world access bank milestones h s,
      Run reputationBadges.Step (badgeStart world access bank milestones) h s → Always BadgesKept h s := by
  intro hclaim
  have hr : Run reputationBadges.Step sampleBadges _ _ := Component.run_play reputationBadges .nil soldTwice
  have honce := (hclaim _ _ _ _ _ _ hr).last.once 2 .firstLoan
  exact absurd honce (by unfold mintsOf; decide +kernel)

end QuorumCredit
