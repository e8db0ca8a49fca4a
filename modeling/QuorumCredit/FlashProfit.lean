import QuorumCredit.FlashLoan
import QuorumCredit.Guards
import QuorumCredit.Pause
import QuorumCredit.Host.Batch
/-!
# What a flash loan leaves behind

The check after the callback compares the balance with the one before the loan and
leaves the fee out: a loan that brings back less than was lent is refused, one that
brings it back without the fee is not. The check of the cap bounds each loan alone:
nothing counts what a callback borrowed before, and only a second loan of a period
can exceed it.
-/

open Host Function

namespace QuorumCredit

/-! ## The money -/

/-- What the act adds to the contract's balance. -/
def CallbackAct.brings (contract token : Address) : CallbackAct → Int
  | .transfer token' _ dst amount => if token' = token ∧ dst = contract then amount else 0
  | .repayFlashLoan borrower principal fee => if borrower = contract then 0 else principal + fee

def broughtBy (contract token : Address) (acts : List CallbackAct) : Int :=
  (acts.map (·.brings contract token)).sum

/-- What leaves the contract for the callback. -/
def lentOut (contract callback : Address) (amount : Int) : Int := if callback = contract then 0 else amount

def flashFee (amount : Int) : Int := (amount * flashLoanFeeBps).tdiv 10000

theorem yields_act (act : CallbackAct) (ctx : Context) (b : Ledger) :
    Yields act.run ctx b fun _ b' =>
      b'.balance ctx.config.token ctx.contract =
        b.balance ctx.config.token ctx.contract + act.brings ctx.contract ctx.config.token := by
  cases act with
  | transfer token src dst amount =>
    simp only [CallbackAct.run, yields_steps, Bank.yields_transfer]
    intro hsrc _ _
    rw [Bank.balance_move, if_neg fun hpaid => hsrc hpaid.2.symm, CallbackAct.brings]
    simp only [eq_comm, sub_zero]
  | repayFlashLoan borrower principal fee =>
    simp only [CallbackAct.run, repayFlashLoan, yields_steps, yields_i128, yields_collect]
    intro _ _ _ _ _
    rw [CallbackAct.brings]
    split
    case isTrue hself =>
      rw [hself, Bank.balance_move]
      simp
    case isFalse hother =>
      rw [Bank.balance_paid_in b ctx.config.token ctx.config.token hother]
      simp

theorem yields_runCallback (acts : List CallbackAct) (ctx : Context) (b : Ledger) :
    Yields (runCallback acts) ctx b fun _ b' =>
      b'.balance ctx.config.token ctx.contract =
        b.balance ctx.config.token ctx.contract + broughtBy ctx.contract ctx.config.token acts := by
  induction acts generalizing b with
  | nil => simp [runCallback, broughtBy]
  | cons act acts ih =>
    rw [runCallback, yields_bind]
    refine (yields_act act ctx b).mono fun _ b' hact => (ih b').mono fun _ b'' hrest => ?_
    rw [hrest, hact, broughtBy, broughtBy, List.map_cons, List.sum_cons, add_assoc]

theorem balance_lent (b : Ledger) (token contract callback : Address) (amount : Int) :
    (b.move token contract callback amount).balance token contract =
      b.balance token contract - lentOut contract callback amount := by
  rw [lentOut]
  split
  case isTrue hself =>
    rw [hself, Bank.balance_move]
    simp
  case isFalse hother =>
    rw [Bank.balance_paid_out b token token hother]
    simp

/-! ## A loan that goes through -/

/-- The fees in the statistics. -/
def FlashLoans.totalFees (g : FlashLoans) : Int := (g.flashLoanStats.map (·.totalFees)).getD 0

/-- The cap of a callback: the one stored for it, or the default. -/
def FlashLoans.capOf (g : FlashLoans) (callback : Address) : Int :=
  ((g.flashLoanPerContractCap callback).map (·.cap)).getD defaultPerContractFlashCap

/-- What is known after a loan. -/
structure Lent (w : World) (s t : FlashStore) (amount : Int) (callback : Address) (acts : List CallbackAct) :
    Prop where
  balance : t.bank.balance w.config.token w.contract =
    s.bank.balance w.config.token w.contract - lentOut w.contract callback amount +
      broughtBy w.contract w.config.token acts
  fees : t.flashLoans.totalFees = s.flashLoans.totalFees + flashFee amount
  caps : t.flashLoans.flashLoanPerContractCap = s.flashLoans.flashLoanPerContractCap

/-! ## When a loan goes through -/

/-- What the check of the cap asks. -/
def FlashLoans.Available (g : FlashLoans) (callback : Address) (amount : Int) : Prop :=
  match g.flashLoanPerContractCap callback with
  | some cap => FitsI128 (cap.cap - cap.borrowedAmount) ∧ amount ≤ cap.cap - cap.borrowedAmount
  | none => amount ≤ defaultPerContractFlashCap

/-- The statistics have room for the loan. -/
def FlashLoans.Counts (g : FlashLoans) (amount fee : Int) : Prop :=
  ∃ stats, g.flashLoanStats = some stats ∧ FitsI128 (stats.totalVolume + amount) ∧ FitsI128 (stats.totalFees + fee) ∧
    stats.loanCount + 1 ≤ u64Max ∧ FitsI128 (stats.periodFees + fee)

/-- Every check lets the loan through but the one of what comes back, and the callback's own acts succeed. -/
structure FlashStore.Lends (s : FlashStore) (ctx : Context) (amount : Int) (callback : Address)
    (acts : List CallbackAct) : Prop where
  unpaused : ctx.config.emergencyPauseEnabled = false ∧ s.access.ThawFits ∧
    (s.access.settled ctx.now).pauseMode = .none
  least : minFlashLoanAmount ≤ amount
  most : amount ≤ maxFlashLoanAmount
  allowed : s.flashLoans.allowedFlashLoanCallbacks callback = true
  cooled : ∀ last ∈ s.flashLoans.flashLoanLastTimestamp callback, flashLoanMinIntervalSecs ≤ ctx.now - last
  held : amount ≤ s.bank.balance ctx.config.token ctx.contract
  available : s.flashLoans.Available callback amount
  returns : Goes (runCallback acts) ctx (s.bank.move ctx.config.token ctx.contract callback amount) fun _ _ => True
  counted : s.flashLoans.Counts amount (flashFee amount)

/-- The callback brings back what left the contract. -/
def Returned (w : World) (amount : Int) (callback : Address) (acts : List CallbackAct) : Prop :=
  lentOut w.contract callback amount ≤ broughtBy w.contract w.config.token acts

section

variable {ctx : Context} {g : FlashLoans} {callback : Address} {amount : Int}

theorem goes_checkFlashLoanCooldown (Q : Unit → FlashLoans → Prop) :
    Goes (checkFlashLoanCooldown callback) ctx g Q ↔
      (∀ last ∈ g.flashLoanLastTimestamp callback, flashLoanMinIntervalSecs ≤ ctx.now - last) ∧ Q () g := by
  simp only [checkFlashLoanCooldown, goes_bind, goes_look]
  cases g.flashLoanLastTimestamp callback with
  | none => simp
  | some last => simp

theorem goes_validatePerContractCap (Q : Unit → FlashLoans → Prop) :
    Goes (validatePerContractCap callback amount) ctx g Q ↔ g.Available callback amount ∧ Q () g := by
  simp only [validatePerContractCap, checkPerContractCap, goes_bind, goes_look, FlashLoans.Available]
  cases g.flashLoanPerContractCap callback with
  | none => simp
  | some cap => simp [and_assoc]

theorem yields_flashLoan (acts : List CallbackAct) (s : FlashStore) :
    Yields (flashLoan amount callback acts) ctx s fun _ t => Lent ctx.toWorld s t amount callback acts := by
  simp only [flashLoan, addFlashLoanRecord, updateFlashLoanStats, yields_parts, yields_steps, yields_i128, yields_u64,
    yields_pay]
  refine (yields_true _ _ _).mono fun _ access _ => ?_
  intro _ _ _
  refine (yields_of_goes (fun R => goes_checkFlashLoanCooldown R) _).2 fun _ _ => ?_
  refine (yields_of_goes (fun R => goes_validatePerContractCap R) _).2 fun _ _ _ _ _ => ?_
  refine (yields_runCallback acts ctx _).mono fun _ bank hbank => ?_
  intro _ stats hstats _ _ _ _
  have hfees : s.flashLoans.totalFees = stats.totalFees := by
    rw [FlashLoans.totalFees, show s.flashLoans.flashLoanStats = some stats from hstats]
    rfl
  refine ⟨?_, ?_, rfl⟩
  · rw [← balance_lent]
    exact hbank
  · rw [hfees]
    rfl

theorem goes_updateFlashLoanStats (fee : Int) :
    Goes (updateFlashLoanStats amount fee) ctx g (fun _ _ => True) ↔ g.Counts amount fee := by
  simp only [updateFlashLoanStats, goes_bind, goes_look, goes_orFail, goes_i128, goes_u64, goes_alter, and_true,
    FlashLoans.Counts]

/-- The acts go through with what was lent back in the contract if they go through and bring it. -/
theorem goes_returned {acts : List CallbackAct} {b : Ledger} {p : Prop} :
    Goes (runCallback acts) ctx (b.move ctx.config.token ctx.contract callback amount) (fun _ b' =>
        b.balance ctx.config.token ctx.contract ≤ b'.balance ctx.config.token ctx.contract ∧ p) ↔
      Goes (runCallback acts) ctx (b.move ctx.config.token ctx.contract callback amount) (fun _ _ => True) ∧
        Returned ctx.toWorld amount callback acts ∧ p := by
  have hbrought := yields_runCallback acts ctx (b.move ctx.config.token ctx.contract callback amount)
  rw [balance_lent] at hbrought
  constructor
  · intro h
    obtain ⟨_, b', hrun, ⟨hle, hp⟩, hb'⟩ := h.and_yields hbrought
    exact ⟨.of_run hrun trivial, by rw [Returned]; omega, hp⟩
  · rintro ⟨h, hle, hp⟩
    refine (h.and_yields hbrought).mono fun _ b' hb' => ⟨?_, hp⟩
    rw [Returned] at hle
    omega

/-- Neither the fee of a loan nor its sum with it overflows. -/
theorem fee_fits (hleast : minFlashLoanAmount ≤ amount) (hmost : amount ≤ maxFlashLoanAmount) :
    FitsI128 (amount * flashLoanFeeBps) ∧ FitsI128 (amount + flashFee amount) := by
  have hfee : flashFee amount = amount * 5 / 10000 :=
    Int.tdiv_eq_ediv_of_nonneg (by unfold minFlashLoanAmount at hleast; unfold flashLoanFeeBps; omega)
  rw [hfee]
  unfold minFlashLoanAmount at hleast
  unfold maxFlashLoanAmount at hmost
  unfold FitsI128 i128Min i128Max flashLoanFeeBps
  omega

/-- A loan goes through exactly if all checks let it and the callback brings back what
left the contract, whatever it does about the fee. -/
theorem goes_flashLoan (acts : List CallbackAct) (s : FlashStore) :
    Goes (flashLoan amount callback acts) ctx s (fun _ _ => True) ↔
      s.Lends ctx amount callback acts ∧ Returned ctx.toWorld amount callback acts := by
  simp only [flashLoan, addFlashLoanRecord, yields_parts, goes_zoom, goes_bind, goes_ask, goes_look, goes_require,
    goes_requireNotPaused, goes_checkFlashLoanCooldown, goes_validatePerContractCap, goes_i128, goes_pay, goes_alter,
    goes_updateFlashLoanStats]
  change ((ctx.config.emergencyPauseEnabled = false ∧ s.access.ThawFits ∧
      (s.access.settled ctx.now).pauseMode = .none) ∧ minFlashLoanAmount ≤ amount ∧ amount ≤ maxFlashLoanAmount ∧
      s.flashLoans.allowedFlashLoanCallbacks callback = true ∧
      (∀ last ∈ s.flashLoans.flashLoanLastTimestamp callback, flashLoanMinIntervalSecs ≤ ctx.now - last) ∧
      amount ≤ s.bank.balance ctx.config.token ctx.contract ∧ s.flashLoans.Available callback amount ∧
      FitsI128 (amount * flashLoanFeeBps) ∧ FitsI128 (amount + flashFee amount) ∧
      (0 ≤ amount ∧ amount ≤ s.bank.balance ctx.config.token ctx.contract) ∧
      Goes (runCallback acts) ctx (s.bank.move ctx.config.token ctx.contract callback amount) fun _ b =>
        s.bank.balance ctx.config.token ctx.contract ≤ b.balance ctx.config.token ctx.contract ∧
          s.flashLoans.Counts amount (flashFee amount)) ↔ _
  rw [goes_returned]
  constructor
  · rintro ⟨hunpaused, hleast, hmost, hallowed, hcooled, hheld, havailable, -, -, -, hreturns, hreturned, hcounted⟩
    exact ⟨⟨hunpaused, hleast, hmost, hallowed, hcooled, hheld, havailable, hreturns, hcounted⟩, hreturned⟩
  · rintro ⟨hl, hreturned⟩
    obtain ⟨hscaled, hsum⟩ := fee_fits hl.least hl.most
    have hpos : 0 ≤ amount := le_trans (by decide) hl.least
    exact ⟨hl.unpaused, hl.least, hl.most, hl.allowed, hl.cooled, hl.held, hl.available, hscaled, hsum,
      ⟨hpos, hl.held⟩, hl.returns, hreturned, hl.counted⟩

end

/-! ## Profit -/

/-- The contract has what it had, and the fee that the statistics count on top. -/
def Profits (w : World) (s t : FlashStore) : Prop :=
  s.bank.balance w.config.token w.contract + (t.flashLoans.totalFees - s.flashLoans.totalFees) ≤
    t.bank.balance w.config.token w.contract

variable {s : Situated World FlashStore}

theorem lent_of {signers : List Address} {amount : Int} {callback : Address} {acts : List CallbackAct}
    {t : FlashStore} (he : flashLoans.exec s signers (.flashLoan amount callback acts) = some t) :
    Lent s.world s.store t amount callback acts :=
  Component.exec_yields (Q := fun t => Lent s.world s.store t amount callback acts)
    (yields_flashLoan acts _) he

theorem lends_iff {signers : List Address} {amount : Int} {callback : Address} {acts : List CallbackAct} :
    (∃ t, flashLoans.exec s signers (.flashLoan amount callback acts) = some t) ↔
      s.store.Lends { s.world with signers } amount callback acts ∧ Returned s.world amount callback acts := by
  refine Iff.trans ?_ (goes_flashLoan acts s.store)
  simp only [Component.exec_eq_some_iff]
  constructor
  · rintro ⟨t, hgoes⟩
    exact hgoes.mono fun _ _ _ => trivial
  · rintro ⟨_, t, hrun, -⟩
    exact ⟨t, .of_run hrun rfl⟩

/-! ## The cap -/

/-- What was lent to the callback in the period. -/
def lentIn (period : Nat → Nat) (callback : Address) (k : Nat) : FlashHistory → Int
  | [] => 0
  | (s, e) :: h =>
    match flashLoans.done s e with
    | some (.flashLoan amount callback' _, _) =>
      if callback' = callback ∧ period s.world.now = k then lentIn period callback k h + amount
      else lentIn period callback k h
    | _ => lentIn period callback k h

/-- In no period any callback borrowed more than its cap. -/
def WithinCaps (period : Nat → Nat) (h : FlashHistory) (s : Situated World FlashStore) : Prop :=
  ∀ callback k, lentIn period callback k h ≤ s.store.flashLoans.capOf callback

/-- Where the callback was lent something earlier in the period, a loan that meets every
check fits what its cap leaves of it. -/
def FitsPeriod (period : Nat → Nat) (h : FlashHistory) (s : Situated World FlashStore) :
    Event World (List Address) FlashStore FlashOp → Prop
  | .call signers (.flashLoan amount callback acts) =>
    0 < lentIn period callback (period s.world.now) h →
      s.store.Lends { s.world with signers } amount callback acts → Returned s.world amount callback acts →
        lentIn period callback (period s.world.now) h + amount ≤ s.store.flashLoans.capOf callback
  | _ => True

theorem lentIn_idle {e : Event World (List Address) FlashStore FlashOp} (hnone : flashLoans.done s e = none)
    (period : Nat → Nat) (callback : Address) (k : Nat) (h : FlashHistory) :
    lentIn period callback k ((s, e) :: h) = lentIn period callback k h := by
  simp [lentIn, hnone]

theorem caps_kept {signers : List Address} {op : FlashOp} {t : FlashStore}
    (he : flashLoans.exec s signers op = some t) :
    t.flashLoans.flashLoanPerContractCap = s.store.flashLoans.flashLoanPerContractCap := by
  cases op with
  | flashLoan => exact (lent_of he).caps
  | repayFlashLoan =>
    refine Component.exec_yields
      (Q := fun t => t.flashLoans.flashLoanPerContractCap = s.store.flashLoans.flashLoanPerContractCap) ?_ he
    simp only [flashLoans, FlashOp.run, yields_parts]
    exact (yields_true _ _ _).mono fun _ _ _ => rfl
  | setFlashLoanCallbackAllowed signers' =>
    refine Component.exec_yields
      (Q := fun t => t.flashLoans.flashLoanPerContractCap = s.store.flashLoans.flashLoanPerContractCap) ?_ he
    simp only [flashLoans, FlashOp.run, setFlashLoanCallbackAllowed, yields_parts, yields_steps]
    refine (yields_requireAdminApproval signers').mono ?_
    rintro _ _ rfl
    rfl

/-- No code stores a cap. -/
theorem no_cap {world : World} {access : Access} {bank : Ledger} {h : FlashHistory} {s : Situated World FlashStore}
    (hr : Run flashLoans.Step (flashStart world access bank) h s) (callback : Address) :
    s.store.flashLoans.flashLoanPerContractCap callback = none := by
  refine Component.inv (I := fun _ s => s.store.flashLoans.flashLoanPerContractCap callback = none) rfl ?_ ?_ hr
  · intro h s signers op t _ hi he
    rw [caps_kept he]
    exact hi
  · rintro h s e s' hi - (rfl | ⟨-, -, hsame⟩)
    · exact hi
    · rw [hsame]
      exact hi

/-- Every loan is of a positive amount. -/
theorem lentIn_nonneg (period : Nat → Nat) (callback : Address) (k : Nat) (h : FlashHistory) :
    0 ≤ lentIn period callback k h := by
  induction h with
  | nil => exact le_rfl
  | cons x h ih =>
    obtain ⟨s, e⟩ := x
    rw [lentIn]
    split
    case h_1 amount callback' acts t hdone =>
      obtain ⟨signers, rfl, he⟩ := Component.of_done hdone
      have hpos : 0 ≤ amount := le_trans (by decide) (lends_iff.1 ⟨t, he⟩).1.least
      split
      · omega
      · exact ih
    case h_2 => exact ih

theorem withinCaps_call {period : Nat → Nat} {h : FlashHistory} {signers : List Address} {op : FlashOp}
    (hcaps : ∀ callback, s.store.flashLoans.flashLoanPerContractCap callback = none) (hp : WithinCaps period h s) :
    WithinCaps period ((s, .call signers op) :: h) (flashLoans.after s signers op) ↔
      FitsPeriod period h s (.call signers op) := by
  cases he : flashLoans.exec s signers op with
  | none =>
    have hsame : WithinCaps period ((s, .call signers op) :: h) (flashLoans.after s signers op) := by
      intro callback k
      simpa [Component.after, Component.done, lentIn, he] using hp callback k
    refine iff_of_true hsame ?_
    cases op with
    | flashLoan amount callback acts =>
      intro _ hlends hreturned
      obtain ⟨t, ht⟩ := lends_iff.2 ⟨hlends, hreturned⟩
      cases he.symm.trans ht
    | repayFlashLoan => trivial
    | setFlashLoanCallbackAllowed => trivial
  | some t =>
    have hdone := Component.done_call he
    have hafter : flashLoans.after s signers op = ⟨s.world, t⟩ := by simp [Component.after, he]
    have hcap : ∀ callback, t.flashLoans.capOf callback = s.store.flashLoans.capOf callback := by
      intro callback
      rw [FlashLoans.capOf, caps_kept he]
      rfl
    rw [hafter]
    cases op with
    | flashLoan amount callback acts =>
      have hlent : ∀ callback' k, lentIn period callback' k ((s, .call signers (.flashLoan amount callback acts)) :: h) =
          if callback = callback' ∧ period s.world.now = k then lentIn period callback' k h + amount
          else lentIn period callback' k h := by
        intro callback' k
        simp only [lentIn, hdone]
      constructor
      · intro hwithin _ _ _
        have hperiod := hwithin callback (period s.world.now)
        rw [hlent, if_pos ⟨rfl, rfl⟩, hcap] at hperiod
        exact hperiod
      · intro hfits callback' k
        rw [hlent, hcap]
        split
        case isTrue heq =>
          obtain ⟨rfl, rfl⟩ := heq
          obtain ⟨hlends, hreturned⟩ := lends_iff.1 ⟨t, he⟩
          by_cases hearlier : 0 < lentIn period callback (period s.world.now) h
          · exact hfits hearlier hlends hreturned
          · -- the period's first loan meets the check of the cap
            have hfirst : amount ≤ s.store.flashLoans.capOf callback := by
              have havailable := hlends.available
              rw [FlashLoans.Available, hcaps callback] at havailable
              rw [FlashLoans.capOf, hcaps callback]
              exact havailable
            have hnonneg := lentIn_nonneg period callback (period s.world.now) h
            omega
        case isFalse => exact hp callback' k
    | repayFlashLoan =>
      refine iff_of_true (fun callback k => ?_) trivial
      rw [hcap]
      simpa only [lentIn, hdone] using hp callback k
    | setFlashLoanCallbackAllowed =>
      refine iff_of_true (fun callback k => ?_) trivial
      rw [hcap]
      simpa only [lentIn, hdone] using hp callback k

/-- A loan that goes through leaves the contract what it had. Whoever asks for one, and
whatever the callback does, the fee comes on top exactly if the checks refuse the loan,
or what left the contract does not come back, or the fee comes with it. A run stays
within the caps exactly if a loan that meets the checks fits what earlier ones left. -/
theorem flash_loans_safe_iff (x : Situated World FlashStore) (signers : List Address) (amount : Int)
    (callback : Address) (acts : List CallbackAct) (period : Nat → Nat) {world : World} {access : Access}
    {bank : Ledger} {h : FlashHistory} {s : Situated World FlashStore}
    (hr : Run flashLoans.Step (flashStart world access bank) h s) :
    (∀ t, flashLoans.exec x signers (.flashLoan amount callback acts) = some t →
        x.store.bank.balance x.world.config.token x.world.contract ≤
          t.bank.balance x.world.config.token x.world.contract) ∧
      ((∀ t, flashLoans.exec x signers (.flashLoan amount callback acts) = some t → Profits x.world x.store t) ↔
        (x.store.Lends { x.world with signers } amount callback acts → Returned x.world amount callback acts →
          lentOut x.world.contract callback amount + flashFee amount ≤
            broughtBy x.world.contract x.world.config.token acts)) ∧
      (Always (WithinCaps period) h s ↔ Throughout (FitsPeriod period) h) := by
  refine ⟨fun t he => ?_, ⟨fun hprofits hlends hreturned => ?_, fun hfee t he => ?_⟩, ?_⟩
  · have hreturned := (lends_iff.1 ⟨t, he⟩).2
    rw [Returned] at hreturned
    rw [(lent_of he).balance]
    omega
  · obtain ⟨t, he⟩ := lends_iff.2 ⟨hlends, hreturned⟩
    have hle := hprofits t he
    rw [Profits, (lent_of he).balance, (lent_of he).fees] at hle
    omega
  · obtain ⟨hlends, hreturned⟩ := lends_iff.1 ⟨t, he⟩
    have hle := hfee hlends hreturned
    rw [Profits, (lent_of he).balance, (lent_of he).fees]
    omega
  · refine Run.always_iff (FitsPeriod period) (WithinCaps period) ?_ ?_ hr
    · exact fun _ _ => show (0 : Int) ≤ defaultPerContractFlashCap by decide
    · intro h s e s' hrun hp hst
      cases hst with
      | call => exact withinCaps_call (no_cap hrun) hp
      | elsewhere hdrift =>
        refine iff_of_true (fun callback k => ?_) trivial
        obtain ⟨-, -, hsame⟩ := hdrift
        rw [lentIn_idle rfl, hsame]
        exact hp callback k

/-- The contract holds 10^11. -/
def richBank : Ledger := { balance := fun _ _ => 100000000000, log := [] }

/-- Callback 20 is allowed and borrows. -/
def borrowed (amount : Int) (acts : List CallbackAct) : List (List Address × FlashOp) :=
  [([1], .setFlashLoanCallbackAllowed [1] 20 true), ([20], .flashLoan amount 20 acts)]

theorem flash_loan_repaid_with_fee :
    let s := flashLoans.play (flashStart sampleWorld .open richBank) (borrowed 1000000 []).dropLast
    let acts := [.transfer 100 30 20 700, .repayFlashLoan 20 1000000 500]
    (∃ t, flashLoans.exec s [20] (.flashLoan 1000000 20 acts) = some t ∧ Profits sampleWorld s.store t) ∧
      Always (WithinCaps (· / 86400))
        (flashLoans.trace (flashStart sampleWorld .open richBank) [] (borrowed 1000000 acts))
        (flashLoans.play (flashStart sampleWorld .open richBank) (borrowed 1000000 acts)) := by
  intro s acts
  have hexec : (flashLoans.exec s [20] (.flashLoan 1000000 20 acts)).isSome := by decide +kernel
  have hr : Run flashLoans.Step (flashStart sampleWorld .open richBank) _ _ :=
    flashLoans.run_play .nil (borrowed 1000000 acts)
  obtain ⟨-, hprofits, hcaps⟩ := flash_loans_safe_iff s [20] 1000000 20 acts (· / 86400) hr
  refine ⟨⟨_, Component.exec_of_isSome hexec, hprofits.2 ?_ _ (Component.exec_of_isSome hexec)⟩, hcaps.2 ?_⟩
  · intro _ _
    decide +kernel
  · refine ⟨⟨trivial, trivial⟩, fun hearlier => ?_⟩
    exact absurd hearlier (by decide +kernel)

/-- A callback that brings back what it was lent is let off the fee, and two loans
of one day exceed the cap. -/
theorem flash_loans_unsafe :
    (¬ ∀ s signers amount callback acts t, flashLoans.exec s signers (.flashLoan amount callback acts) = some t →
      Profits s.world s.store t) ∧
    ¬ ∀ period world access bank h s, Run flashLoans.Step (flashStart world access bank) h s →
      Always (WithinCaps period) h s := by
  constructor
  · intro hclaim
    let s := flashLoans.play (flashStart sampleWorld .open richBank) (borrowed 1000000 []).dropLast
    have hexec : (flashLoans.exec s [20] (.flashLoan 1000000 20 [.transfer 100 20 0 1000000])).isSome := by
      decide +kernel
    have hprofits := hclaim s [20] _ _ _ _ (Component.exec_of_isSome hexec)
    unfold Profits at hprofits
    exact absurd hprofits (by decide +kernel)
  · intro hclaim
    have hfirst := flashLoans.run_play (.nil : Run _ (flashStart sampleWorld .open richBank) [] _)
      (borrowed 6000000000 [.transfer 100 20 0 6000000000])
    have hlater := hfirst.snoc (.elsewhere ⟨by decide, rfl, rfl⟩ : flashLoans.Step
      (flashLoans.play (flashStart sampleWorld .open richBank) (borrowed 6000000000 [.transfer 100 20 0 6000000000]))
      _ ⟨{ sampleWorld with now := 1000060 }, _⟩)
    have hsecond := flashLoans.run_play hlater [([20], .flashLoan 6000000000 20 [.transfer 100 20 0 6000000000])]
    have hcaps := (hclaim (· / 86400) _ _ _ _ _ hsecond).last 20 11
    exact absurd hcaps (by decide +kernel)

end QuorumCredit
