import QuorumCredit.InterestRateOptions
import QuorumCredit.Host.Script
import QuorumCredit.Host.Totals
import Mathlib.Tactic.Linarith
/-!
# The open interest

An option is active from its purchase until it is settled or cancelled, and no call
makes it active again. Its notional and its premium are then in the open interest of
its type, so that closing it takes off what is there.
-/

open Host Function

namespace QuorumCredit

/-! ## The square root -/

/-- Newton's step does not go below the root. -/
theorem sqrt_le_newton (n : Nat) {x : Nat} (hx : 0 < x) : Nat.sqrt n ≤ (x + n / x) / 2 := by
  have hroot : Nat.sqrt n * Nat.sqrt n ≤ n := Nat.sqrt_le n
  generalize Nat.sqrt n = r at hroot ⊢
  have hdiv : 2 * r - x ≤ n / x := by
    rw [Nat.le_div_iff_mul_le hx]
    refine le_trans ?_ hroot
    rcases le_total x r with hxr | hrx
    · obtain ⟨d, rfl⟩ := Nat.exists_eq_add_of_le hxr
      rw [show 2 * (x + d) - x = x + 2 * d by omega]
      nlinarith
    · obtain ⟨d, rfl⟩ := Nat.exists_eq_add_of_le hrx
      rcases le_total d r with hdr | hrd
      · obtain ⟨e, rfl⟩ := Nat.exists_eq_add_of_le hdr
        rw [show 2 * (d + e) - (d + e + d) = e by omega]
        nlinarith
      · rw [show 2 * r - (r + d) = 0 by omega, Nat.zero_mul]
        exact Nat.zero_le _
  omega

/-- From above the root, the loop ends at it. -/
theorem isqrtLoop_eq {n : Nat} (hn : 0 < n) {fuel x : Nat} (hroot : Nat.sqrt n ≤ x) (hfuel : x ≤ fuel) :
    isqrtLoop n fuel x = Nat.sqrt n := by
  have hpos : 0 < x := (Nat.sqrt_pos.2 hn).trans_le hroot
  induction fuel generalizing x with
  | zero => omega
  | succ fuel ih =>
    rw [isqrtLoop]
    split
    case isTrue hless =>
      have hnext := sqrt_le_newton n hpos
      exact ih hnext (by omega) ((Nat.sqrt_pos.2 hn).trans_le hnext)
    case isFalse hstop =>
      have hdiv : x ≤ n / x := by omega
      have hsquare : x * x ≤ n := (Nat.le_div_iff_mul_le hpos).1 hdiv
      exact le_antisymm (Nat.le_sqrt.2 hsquare) hroot

theorem isqrt_eq (n : Nat) : isqrt n = Nat.sqrt n := by
  unfold isqrt
  split
  case isTrue hn => rw [hn, Nat.sqrt_zero]
  case isFalse hn => exact isqrtLoop_eq (Nat.pos_of_ne_zero hn) (Nat.sqrt_le_self n) le_rfl

/-! ## What a call does -/

namespace OptionOpenInterest

/-- With an option more. -/
def add (oi : OptionOpenInterest) (notional premium : Int) : OptionOpenInterest :=
  { count := oi.count + 1, totalNotional := oi.totalNotional + notional, totalPremiums := oi.totalPremiums + premium }

/-- With an option less, as the source takes it off. -/
def remove (oi : OptionOpenInterest) (notional premium : Int) : OptionOpenInterest :=
  { count := oi.count - 1, totalNotional := max (oi.totalNotional - notional) 0
    totalPremiums := max (oi.totalPremiums - premium) 0 }

end OptionOpenInterest

/-- The option that the call closes. -/
def OptionOp.closes : OptionOp → Option Nat
  | .settleOption _ optionId _ => some optionId
  | .cancelOption _ optionId _ => some optionId
  | _ => none

/-- What a call that goes through found and did. -/
inductive OptionEffect (g g' : Options) : OptionOp → Prop
  | volatilitySet {signers vol} : g'.interestRateOption = g.interestRateOption →
      g'.optionCounter = g.optionCounter → g'.optionOpenInterest = g.optionOpenInterest →
      OptionEffect g g' (.setImpliedVolatility signers vol)
  | bought {holder optionType strike notional duration token} {o : InterestRateOption} : o.optionType = optionType →
      o.status = .active → o.notional = notional → 0 < notional → 0 ≤ o.premium →
      g'.optionCounter = g.optionCounter + 1 →
      g'.interestRateOption = update g.interestRateOption (g.optionCounter + 1) (some o) →
      g'.optionOpenInterest = update g.optionOpenInterest optionType
        (some ((g.getOpenInterest optionType).add notional o.premium)) →
      OptionEffect g g' (.buyOption holder optionType strike notional duration token)
  | closed {op id} {o o' : InterestRateOption} : op.closes = some id → g.interestRateOption id = some o →
      o.status = .active → g'.interestRateOption = update g.interestRateOption id (some o') →
      o'.status ≠ .active → o'.notional = o.notional → o'.premium = o.premium → g'.optionCounter = g.optionCounter →
      g'.optionOpenInterest = update g.optionOpenInterest o.optionType
        (some ((g.getOpenInterest o.optionType).remove o.notional o.premium)) →
      OptionEffect g g' op

section

variable {ctx : Context}

theorem yields_calculatePremium (notional : Int) (strikeBps days vol : Nat) (g : Options) :
    Yields (calculatePremium notional strikeBps days vol) ctx g fun premium g' => g' = g ∧ 0 ≤ premium := by
  unfold calculatePremium
  split
  case isTrue => simp
  case isFalse hnot =>
    obtain ⟨-, hnotional⟩ := not_or.1 hnot
    simp only [yields_bind, yields_i128]
    intro _ _ _ _ _
    have hproduct : 0 ≤ notional * strikeBps * vol * isqrt days := by
      have hpos : 0 ≤ notional := le_of_not_ge hnotional
      positivity
    have hpremium := Int.tdiv_nonneg hproduct (by decide : 0 ≤ premiumDivisor)
    have hfee := Int.tdiv_nonneg (Int.mul_nonneg hpremium (by decide : 0 ≤ optionProtocolFeeBps))
      (by decide : (0 : Int) ≤ 10000)
    exact ⟨trivial, Int.add_nonneg hpremium hfee⟩

theorem yields_updateOpenInterest_add (optionType : OptionType) (notional premium : Int) (g : Options) :
    Yields (updateOpenInterest optionType notional premium true) ctx g fun _ g' =>
      g' = { g with
        optionOpenInterest := update g.optionOpenInterest optionType
          (some ((g.getOpenInterest optionType).add notional premium)) } := by
  simp only [updateOpenInterest, saveOpenInterest, if_true, yields_steps, yields_u64, yields_i128]
  intro _ _ _
  rfl

theorem yields_updateOpenInterest_remove (optionType : OptionType) (notional premium : Int) (g : Options) :
    Yields (updateOpenInterest optionType notional premium false) ctx g fun _ g' =>
      g' = { g with
        optionOpenInterest := update g.optionOpenInterest optionType
          (some ((g.getOpenInterest optionType).remove notional premium)) } := by
  simp only [updateOpenInterest, saveOpenInterest, Bool.false_eq_true, if_false, yields_steps, yields_i128]
  intro _ _
  rfl

theorem yields_optionPayout (option : InterestRateOption) (currentBps : Nat) (g : Options) :
    Yields (optionPayout option currentBps) ctx g fun _ g' => g' = g := by
  simp only [optionPayout, yields_steps, yields_i128]
  exact fun _ => trivial

theorem yields_payPayout (token holder : Address) (fee net : Int) (s : OptionStore) :
    Yields (payPayout token holder fee net) ctx s fun _ t => t.options = s.options := by
  unfold payPayout
  split
  · simp only [yields_parts, yields_bind]
    refine (yields_true _ _ _).mono fun _ _ _ => ?_
    exact (yields_true _ _ _).mono fun _ _ _ => rfl
  · simp

theorem yields_settleOption (holder : Address) (id : Nat) (token : Address) (s : OptionStore) :
    Yields (settleOption holder id token) ctx s fun _ t =>
      OptionEffect s.options t.options (.settleOption holder id token) := by
  simp only [settleOption, loadActiveOption, yields_parts, yields_steps, yields_requireAuth]
  intro _ option hoption _ hactive _
  refine (yields_optionPayout option _ _).mono ?_
  rintro payout _ rfl
  simp only [yields_i128]
  intro _ _
  refine (yields_payPayout token holder _ _ _).mono fun _ t ht => ?_
  simp only [saveOption, yields_alter]
  refine (yields_updateOpenInterest_remove _ _ _ _).mono ?_
  rintro _ _ rfl
  have hsame : (Host.Part.get t : Options) = s.options := ht
  rw [hsame]
  refine .closed rfl hoption hactive rfl ?_ rfl rfl rfl rfl
  dsimp only
  split <;> simp

theorem yields_cancelOption (holder : Address) (id : Nat) (token : Address) (s : OptionStore) :
    Yields (cancelOption holder id token) ctx s fun _ t =>
      OptionEffect s.options t.options (.cancelOption holder id token) := by
  simp only [cancelOption, loadActiveOption, saveOption, yields_parts, yields_steps, yields_requireAuth, yields_i128]
  intro _ option hoption _ hactive _
  refine (yields_true _ _ _).mono fun _ bank _ => ?_
  refine (yields_updateOpenInterest_remove _ _ _ _).mono ?_
  rintro _ _ rfl
  exact .closed rfl hoption hactive rfl (by simp) rfl rfl rfl rfl

theorem yields_buyOption (holder : Address) (optionType : OptionType) (strike : Nat) (notional : Int) (duration : Nat)
    (token : Address) (s : OptionStore) :
    Yields (buyOption holder optionType strike notional duration token) ctx s fun _ t =>
      OptionEffect s.options t.options (.buyOption holder optionType strike notional duration token) := by
  simp only [buyOption, saveOption, yields_parts, yields_steps, yields_requireAuth, yields_u64]
  refine (yields_true _ _ _).mono fun _ access _ => ?_
  rintro _ ⟨hnotional, -, -⟩ _
  refine (yields_calculatePremium notional strike _ _ _).mono ?_
  rintro premium _ ⟨rfl, hpremium⟩
  refine (yields_true _ _ _).mono fun _ bank _ => ?_
  intro _
  refine (yields_updateOpenInterest_add _ _ _ _).mono ?_
  rintro _ _ rfl
  exact .bought rfl rfl rfl hnotional hpremium rfl rfl rfl

theorem yields_optionOp (op : OptionOp) (s : OptionStore) :
    Yields op.run ctx s fun _ t => OptionEffect s.options t.options op := by
  cases op with
  | setImpliedVolatility signers vol =>
    simp only [OptionOp.run, setImpliedVolatility, yields_parts, yields_steps]
    refine (yields_requireAdminApproval signers).mono ?_
    rintro _ _ rfl
    exact .volatilitySet rfl rfl rfl
  | buyOption holder optionType strike notional duration token =>
    simp only [OptionOp.run, discard, yields_steps]
    exact yields_buyOption holder optionType strike notional duration token s
  | settleOption holder id token =>
    simp only [OptionOp.run, discard, yields_steps]
    exact yields_settleOption holder id token s
  | cancelOption holder id token =>
    simp only [OptionOp.run, discard, yields_steps]
    exact yields_cancelOption holder id token s

end

/-! ## Exactness -/

/-- The option, if it is stored, active and of the type: what `val` says of it, and zero otherwise. -/
def activeValue (optionType : OptionType) (val : InterestRateOption → Int) : Option InterestRateOption → Int
  | some o => if o.status = .active ∧ o.optionType = optionType then val o else 0
  | none => 0

/-- The number, the notional and the premiums of the active options of a type are
what its open interest says. -/
structure OpenInterestExact (g : Options) (optionType : OptionType) : Prop where
  count : Totals (fun id => activeValue optionType (fun _ => 1) (g.interestRateOption id))
    (g.getOpenInterest optionType).count
  notional : Totals (fun id => activeValue optionType (·.notional) (g.interestRateOption id))
    (g.getOpenInterest optionType).totalNotional
  premiums : Totals (fun id => activeValue optionType (·.premium) (g.interestRateOption id))
    (g.getOpenInterest optionType).totalPremiums

/-- Options are numbered from one on, and none has a negative notional or premium. -/
structure OptionsSound (g : Options) : Prop where
  numbered : ∀ id, g.optionCounter < id → g.interestRateOption id = none
  notional : ∀ id o, g.interestRateOption id = some o → 0 ≤ o.notional
  premium : ∀ id o, g.interestRateOption id = some o → 0 ≤ o.premium
  exact : ∀ optionType, OpenInterestExact g optionType

variable {optionType : OptionType}

theorem activeValue_nonneg {val : InterestRateOption → Int} {entry : Option InterestRateOption}
    (hval : ∀ o, entry = some o → 0 ≤ val o) : 0 ≤ activeValue optionType val entry := by
  cases entry with
  | none => exact le_rfl
  | some o =>
    rw [activeValue]
    split
    · exact hval o rfl
    · exact le_rfl

theorem activeValue_active {o : InterestRateOption} (hactive : o.status = .active) (val : InterestRateOption → Int) :
    activeValue o.optionType val (some o) = val o := by
  simp [activeValue, hactive]

theorem activeValue_other {o : InterestRateOption} (hother : ¬ (o.status = .active ∧ o.optionType = optionType))
    (val : InterestRateOption → Int) : activeValue optionType val (some o) = 0 :=
  if_neg hother

theorem getOpenInterest_update {g g' : Options} {oi : OptionOpenInterest}
    (h : g'.optionOpenInterest = update g.optionOpenInterest optionType (some oi)) (other : OptionType) :
    g'.getOpenInterest other = if other = optionType then oi else g.getOpenInterest other := by
  rw [Options.getOpenInterest, h, update_apply]
  split
  · rfl
  · rfl

/-- What is taken off for an active option is there. -/
theorem OptionsSound.covered {g : Options} (h : OptionsSound g) {id : Nat} {o : InterestRateOption}
    (ho : g.interestRateOption id = some o) (hactive : o.status = .active) :
    1 ≤ (g.getOpenInterest o.optionType).count ∧ o.notional ≤ (g.getOpenInterest o.optionType).totalNotional ∧
      o.premium ≤ (g.getOpenInterest o.optionType).totalPremiums := by
  have hexact := h.exact o.optionType
  have hcount := hexact.count.entry_le (fun _ => activeValue_nonneg fun _ _ => by decide) id
  have hnotional := hexact.notional.entry_le (fun i => activeValue_nonneg fun o ho => h.notional i o ho) id
  have hpremium := hexact.premiums.entry_le (fun i => activeValue_nonneg fun o ho => h.premium i o ho) id
  rw [ho, activeValue_active hactive] at hcount hnotional hpremium
  exact ⟨by omega, hnotional, hpremium⟩

/-- Writing the option `id`, active before or after it or not at all, and correcting the open interest. -/
theorem OpenInterestExact.written {g g' : Options} (h : OpenInterestExact g optionType) {id : Nat}
    {o' : InterestRateOption} (hwritten : g'.interestRateOption = update g.interestRateOption id (some o'))
    (hcount : ((g'.getOpenInterest optionType).count : Int) = (g.getOpenInterest optionType).count + activeValue optionType (fun _ => 1) (some o') - activeValue optionType (fun _ => 1) (g.interestRateOption id))
    (hnotional : (g'.getOpenInterest optionType).totalNotional = (g.getOpenInterest optionType).totalNotional + activeValue optionType (·.notional) (some o') - activeValue optionType (·.notional) (g.interestRateOption id))
    (hpremiums : (g'.getOpenInterest optionType).totalPremiums = (g.getOpenInterest optionType).totalPremiums + activeValue optionType (·.premium) (some o') - activeValue optionType (·.premium) (g.interestRateOption id)) :
    OpenInterestExact g' optionType where
  count := by
    rw [hwritten]
    exact (h.count.update_entry id (some o')).congr rfl hcount
  notional := by
    rw [hwritten]
    exact (h.notional.update_entry id (some o')).congr rfl hnotional
  premiums := by
    rw [hwritten]
    exact (h.premiums.update_entry id (some o')).congr rfl hpremiums

/-- The rest of the invariant, for a call that writes the option `id`. -/
theorem OptionsSound.written {g g' : Options} (h : OptionsSound g) {id : Nat} {o' : InterestRateOption}
    (hwritten : g'.interestRateOption = update g.interestRateOption id (some o')) (hid : id ≤ g'.optionCounter)
    (hcounter : g.optionCounter ≤ g'.optionCounter) (hnotional : 0 ≤ o'.notional) (hpremium : 0 ≤ o'.premium)
    (hexact : ∀ optionType, OpenInterestExact g' optionType) : OptionsSound g' := by
  have hstored : ∀ i o, g'.interestRateOption i = some o → o = o' ∨ g.interestRateOption i = some o := by
    intro i o ho
    rw [hwritten, update_apply] at ho
    split at ho
    · cases ho
      exact .inl rfl
    · exact .inr ho
  constructor
  · intro i hi
    rw [hwritten, update_of_ne (by omega)]
    exact h.numbered i (by omega)
  · intro i o ho
    rcases hstored i o ho with rfl | ho
    · exact hnotional
    · exact h.notional i o ho
  · intro i o ho
    rcases hstored i o ho with rfl | ho
    · exact hpremium
    · exact h.premium i o ho
  · exact hexact

theorem sound_optionCall {g g' : Options} {op : OptionOp} (h : OptionsSound g) (he : OptionEffect g g' op) :
    OptionsSound g' := by
  cases he with
  | volatilitySet hoption hcounter hoi =>
    have hsame : ∀ optionType, g'.getOpenInterest optionType = g.getOpenInterest optionType := fun optionType => by
      rw [Options.getOpenInterest, hoi]
      rfl
    refine ⟨?_, ?_, ?_, fun optionType => ?_⟩
    · rw [hoption, hcounter]
      exact h.numbered
    · rw [hoption]
      exact h.notional
    · rw [hoption]
      exact h.premium
    · obtain ⟨hcount, hnotional, hpremiums⟩ := h.exact optionType
      constructor
      · rw [hoption, hsame]
        exact hcount
      · rw [hoption, hsame]
        exact hnotional
      · rw [hoption, hsame]
        exact hpremiums
  | @bought holder optionType strike notional duration token o htype hactive hnotional hpos hpremium hcounter hwritten
      hoi =>
    subst htype hnotional
    have hnew : g.interestRateOption (g.optionCounter + 1) = none := h.numbered _ (by omega)
    refine h.written hwritten hcounter.ge (by omega) hpos.le hpremium fun other => ?_
    have hnone : ∀ val, activeValue other val (g.interestRateOption (g.optionCounter + 1)) = 0 := fun val => by
      rw [hnew]
      rfl
    by_cases hsame : other = o.optionType
    · subst hsame
      refine (h.exact _).written hwritten ?_ ?_ ?_
      · simp [getOpenInterest_update hoi, activeValue_active hactive, hnone, OptionOpenInterest.add]
      · simp [getOpenInterest_update hoi, activeValue_active hactive, hnone, OptionOpenInterest.add]
      · simp [getOpenInterest_update hoi, activeValue_active hactive, hnone, OptionOpenInterest.add]
    · have hother : ¬ (o.status = .active ∧ o.optionType = other) := fun h => hsame h.2.symm
      refine (h.exact _).written hwritten ?_ ?_ ?_
      · simp [getOpenInterest_update hoi, activeValue_other hother, hnone, hsame]
      · simp [getOpenInterest_update hoi, activeValue_other hother, hnone, hsame]
      · simp [getOpenInterest_update hoi, activeValue_other hother, hnone, hsame]
  | @closed op id o o' hcloses ho hactive hwritten hinactive hnotional hpremium hcounter hoi =>
    obtain ⟨hcount, hcovered, hcovered'⟩ := h.covered ho hactive
    have hid : id ≤ g.optionCounter := by
      by_contra hlt
      rw [h.numbered id (by omega)] at ho
      cases ho
    refine h.written hwritten (by omega) (by omega) (by rw [hnotional]; exact h.notional id o ho)
      (by rw [hpremium]; exact h.premium id o ho) fun other => ?_
    have hgone : ∀ val, activeValue other val (some o') = 0 := fun val => activeValue_other (fun h => hinactive h.1) val
    by_cases hsame : other = o.optionType
    · subst hsame
      -- no clamp is reached: what is taken off is there
      refine (h.exact _).written hwritten ?_ ?_ ?_
      · simp only [getOpenInterest_update hoi, if_true, hgone, ho, activeValue_active hactive,
          OptionOpenInterest.remove]
        omega
      · simp only [getOpenInterest_update hoi, if_true, hgone, ho, activeValue_active hactive,
          OptionOpenInterest.remove]
        omega
      · simp only [getOpenInterest_update hoi, if_true, hgone, ho, activeValue_active hactive,
          OptionOpenInterest.remove]
        omega
    · have hother : ¬ (o.status = .active ∧ o.optionType = other) := fun h => hsame h.2.symm
      refine (h.exact _).written hwritten ?_ ?_ ?_
      · simp [getOpenInterest_update hoi, hgone, ho, activeValue_other hother, hsame]
      · simp [getOpenInterest_update hoi, hgone, ho, activeValue_other hother, hsame]
      · simp [getOpenInterest_update hoi, hgone, ho, activeValue_other hother, hsame]

theorem sound_empty : OptionsSound .empty where
  numbered _ _ := rfl
  notional _ _ ho := by cases ho
  premium _ _ ho := by cases ho
  exact _ := ⟨.zero, .zero, .zero⟩

section

variable {world : World} {access : Access} {bank : Ledger} {treasury : CommunityTreasury}
  {s : Situated World OptionStore}
  {h : List (Situated World OptionStore × Event World (List Address) OptionStore OptionOp)}

theorem optionEffect_of {signers : List Address} {op : OptionOp} {t : OptionStore}
    (he : rateOptions.exec s signers op = some t) : OptionEffect s.store.options t.options op :=
  Component.exec_yields (Q := fun t => OptionEffect s.store.options t.options op) (yields_optionOp op s.store) he

theorem sound_optionsRun (hr : Run rateOptions.Step (optionsStart world access bank treasury) h s) :
    OptionsSound s.store.options := by
  refine Component.always (I := fun t => OptionsSound t.options) sound_empty ?_ ?_ hr
  · exact fun hsound he => sound_optionCall hsound (optionEffect_of he)
  · rintro _ x _ x' hsound ⟨-, -, hsame⟩
    rw [hsame]
    exact hsound

/-- The open interest counts the active options exactly, and closing one never
reaches the bounds at zero. -/
theorem open_interest_exact (hr : Run rateOptions.Step (optionsStart world access bank treasury) h s) :
    (∀ optionType, OpenInterestExact s.store.options optionType) ∧
      ∀ signers op t id, rateOptions.exec s signers op = some t → op.closes = some id →
        ∃ o, s.store.options.interestRateOption id = some o ∧
          1 ≤ (s.store.options.getOpenInterest o.optionType).count ∧
          0 ≤ (s.store.options.getOpenInterest o.optionType).totalNotional - o.notional ∧
          0 ≤ (s.store.options.getOpenInterest o.optionType).totalPremiums - o.premium := by
  have hsound := sound_optionsRun hr
  refine ⟨hsound.exact, fun signers op t id he hcloses => ?_⟩
  cases optionEffect_of he with
  | volatilitySet => cases hcloses
  | bought => cases hcloses
  | closed hid ho hactive =>
    rw [hcloses] at hid
    cases hid
    obtain ⟨hcount, hnotional, hpremium⟩ := hsound.covered ho hactive
    exact ⟨_, ho, hcount, by omega, by omega⟩

end

/-- Accounts 2 and 3 buy options; 2 cancels one and settles another when it is due. -/
def tradedOptions : List (Component.Act (List Address) OptionOp) :=
  [.call [2] (.buyOption 2 .call 200 1000000000 86400 100), .call [3] (.buyOption 3 .put 300 2000000000 864000 100),
    .call [2] (.buyOption 2 .put 100 1000000000 86400 100), .call [2] (.cancelOption 2 1 100), .wait 86400]

theorem open_interest_exact_traded :
    let s := rateOptions.perform World.later (optionsStart sampleWorld .open sampleBank .empty) tradedOptions
    (∀ optionType, OpenInterestExact s.store.options optionType) ∧
      ∃ o, s.store.options.interestRateOption 3 = some o ∧
        1 ≤ (s.store.options.getOpenInterest o.optionType).count ∧
        0 ≤ (s.store.options.getOpenInterest o.optionType).totalNotional - o.notional ∧
        0 ≤ (s.store.options.getOpenInterest o.optionType).totalPremiums - o.premium := by
  intro s
  have hexact := open_interest_exact (Component.run_perform (C := rateOptions) World.later
    (fun _ _ _ => ⟨Nat.le_add_right _ _, rfl, rfl⟩)
    (.nil : Run _ (optionsStart sampleWorld .open sampleBank .empty) [] _) tradedOptions)
  have hexec : (rateOptions.exec s [2] (.settleOption 2 3 100)).isSome := by decide +kernel
  exact ⟨hexact.1, hexact.2 _ _ _ 3 (Component.exec_of_isSome hexec) rfl⟩

end QuorumCredit
