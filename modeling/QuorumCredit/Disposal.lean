import QuorumCredit.Escrow
/-!
# What becomes of a slash

The entry a slash leaves in the escrow has another shape than the one appeals
read, so nobody can appeal before the entry has been released; and by then the
funds are in the treasury. Reversal, release and recovery each look at a flag of
their own. Slashed funds are disposed of at most once exactly as long as none of
them finds the funds disposed of by another.
-/

open Host Function

namespace QuorumCredit

/-! ## No appeal while the escrow is held -/

/-- The escrow of `b` holds what a slash left, at least until `until`. -/
def Store.Held (s : Store) (b : Address) (expiry : Nat) : Prop :=
  ∃ amount release, s.files.escrow b = some (.slashed amount release) ∧ expiry ≤ release

theorem SlashFiles.escrow_of_ne {f : SlashFiles} {b b' : Address} {entry : Option EscrowEntry} (h : b ≠ b') :
    (f.setEscrow b' entry).escrow b = f.escrow b := update_of_ne h ..

theorem SlashEffect.held {w : World} {s t : Store} {op : Op} (he : SlashEffect w s t op) {b : Address} {since : Nat}
    (h : s.Held b (since + slashEscrowPeriod)) (hsince : since ≤ w.now) (hnow : w.now < since + slashEscrowPeriod) :
    t.Held b (since + slashEscrowPeriod) := by
  obtain ⟨amount, release, hentry, hrelease⟩ := h
  cases he with
  | kept _ hfiles => exact ⟨amount, release, hfiles ▸ hentry, hrelease⟩
  | @executed _ b' record _ hfiled =>
    rw [Store.Held, hfiled.files]
    by_cases hb : b = b'
    · subst hb
      exact ⟨record.totalSlashed, w.now + slashEscrowPeriod, update_self .., by omega⟩
    · exact ⟨amount, release, (update_of_ne hb ..).trans hentry, hrelease⟩
  | reversed _ _ hfiles _ => exact ⟨amount, release, hfiles ▸ hentry, hrelease⟩
  | @released _ b' amount' release' hentry' hdue hfiles _ =>
    -- the escrow of `b` is not due yet
    have hb : b ≠ b' := by
      rintro rfl
      cases hentry.symm.trans hentry'
      omega
    exact ⟨amount, release, hfiles ▸ (SlashFiles.escrow_of_ne hb).trans hentry, hrelease⟩
  | @appealed b' _ _ hshape _ _ hfiles =>
    have hb : b ≠ b' := by
      rintro rfl
      exact hshape amount release hentry
    exact ⟨amount, release, hfiles ▸ (SlashFiles.escrow_of_ne hb).trans hentry, hrelease⟩
  | voted _ _ hfiles _ => exact ⟨amount, release, hfiles ▸ hentry, hrelease⟩
  | @decided _ b' escrow status _ hescrow hfiles _ =>
    have hb : b ≠ b' := by
      rintro rfl
      cases hentry.symm.trans hescrow
    exact ⟨amount, release, hfiles ▸ (SlashFiles.escrow_of_ne hb).trans hentry, hrelease⟩
  | repaid hslashing =>
    have hfiles : t.files = s.files := congrArg Slashing.files hslashing
    exact ⟨amount, release, hfiles ▸ hentry, hrelease⟩
  | recovered hrecovered => exact ⟨amount, release, hrecovered.files ▸ hentry, hrelease⟩

theorem held_run {s h s'} (hr : Run Step s h s') {b : Address}
    (hheld : s.store.Held b (s.world.now + slashEscrowPeriod)) :
    s.world.now ≤ s'.world.now ∧
      (s'.world.now < s.world.now + slashEscrowPeriod → s'.store.Held b (s.world.now + slashEscrowPeriod)) := by
  refine Run.always (fun s' => s.world.now ≤ s'.world.now ∧
    (s'.world.now < s.world.now + slashEscrowPeriod → s'.store.Held b (s.world.now + slashEscrowPeriod)))
    ⟨le_rfl, fun _ => hheld⟩ ?_ hr
  rintro s₁ m s₂ ⟨hsince, hkept⟩ hst
  cases hst with
  | done hd => exact ⟨hsince, fun hnow => (slashEffect_of hd).held (hkept hnow) hsince hnow⟩
  | refused _ => exact ⟨hsince, hkept⟩
  | elsewhere hnow _ => exact ⟨hsince.trans hnow, fun hlt => hkept (lt_of_le_of_lt hnow hlt)⟩

theorem exec_appealSlash_held {s : State} {signers : List Address} {b : Address} {expiry : Nat}
    (h : s.store.Held b expiry)
    (t : Store) : exec ⟨signers, .appealSlash b⟩ s ≠ .ok t := by
  intro hd
  obtain ⟨amount, release, hentry, -⟩ := h
  cases slashEffect_of hd with
  | kept hfiles _ => cases hfiles
  | executed hop _ => cases hop
  | appealed hshape _ _ _ => exact hshape amount release hentry
  | decided _ hop _ _ _ => exact hop

theorem exec_voteAppeal_held {s : State} {signers : List Address} {voter b : Address} {approve : Bool} {expiry : Nat}
    (h : s.store.Held b expiry) (t : Store) : exec ⟨signers, .voteAppeal voter b approve⟩ s ≠ .ok t := by
  intro hd
  obtain ⟨amount, release, hentry, -⟩ := h
  cases slashEffect_of hd with
  | kept hfiles _ => cases hfiles
  | executed hop _ => cases hop
  | voted hescrow _ _ _ =>
    obtain ⟨escrow, hescrow⟩ := hescrow
    cases hentry.symm.trans hescrow
  | decided _ hop hescrow _ _ =>
    obtain ⟨rfl, -⟩ := hop
    cases hentry.symm.trans hescrow

/-- After a slash of a borrower, and whatever happens in the appeal period, its
escrow does not decode as the appeals read it: nobody can open or vote on one. -/
theorem slash_cannot_be_appealed {s : State} {c : Call} {t : Store} {b : Address} (hc : c.op.executes = some b)
    (hd : exec c s = .ok t) {h s'} (hr : Run Step { s with store := t } h s')
    (hperiod : s'.world.now ≤ s.world.now + slashAppealPeriod) :
    (∀ ctx, appealedEscrow b ctx s'.store.slashing = .error .decode) ∧
      (∀ signers t', exec ⟨signers, .appealSlash b⟩ s' ≠ .ok t') ∧
      ∀ signers voter approve t', exec ⟨signers, .voteAppeal voter b approve⟩ s' ≠ .ok t' := by
  obtain ⟨record, hfiled⟩ := filed_of hc hd
  have hslashed : t.Held b (s.world.now + slashEscrowPeriod) :=
    ⟨record.totalSlashed, _, hfiled.files ▸ update_self .., le_rfl⟩
  obtain ⟨-, hkept⟩ := held_run hr hslashed
  have hheld := hkept (lt_of_le_of_lt hperiod (Nat.add_lt_add_left (by decide) _))
  refine ⟨fun ctx => ?_, fun _ => exec_appealSlash_held hheld, fun _ _ _ => exec_voteAppeal_held hheld⟩
  obtain ⟨amount, release, hentry, -⟩ := hheld
  have hentry : s'.store.slashing.slashEscrow b = some (.slashed amount release) := hentry
  unfold appealedEscrow
  rw [run_bind_ok (run_look ..), hentry]
  rfl

/-- The pool loan, with the vote of the only voucher for a slash. -/
def votedLoan : List Act := poolLoan ++ [.call [2] (.voteSlash 2 10 true)]

theorem slash_cannot_be_appealed_vote :
    let s := start.play votedLoan
    let c : Call := ⟨[1], .executePendingSlash 10⟩
    (exec c s).toBool = true ∧ ∀ t', exec ⟨[10], .appealSlash 10⟩ { s with store := (s.after c).store } ≠ .ok t' := by
  intro s c
  have hok : (exec c s).toBool = true := by decide +kernel
  have h := slash_cannot_be_appealed (b := 10) rfl (exec_after hok) .nil (Nat.le_add_right s.world.now _)
  exact ⟨hok, h.2.1 [10]⟩

/-- Right after the slash, in the borrower's name and with the contract open, the appeal is refused. -/
theorem appeal_refused :
    ∃ s c, Reachable s ∧ c.op.executes = some 10 ∧ (exec c s).toBool = true ∧
      (exec ⟨[10], .appealSlash 10⟩ (s.after c)).toBool = false :=
  ⟨start.play votedLoan, ⟨[1], .executePendingSlash 10⟩, Reachable.script sampleWorld sampleBank votedLoan, rfl,
    by decide +kernel, by decide +kernel⟩

/-! ## The ledger of a slash -/

/-- The slash of `b` executed last. -/
def lastSlash : List (State × Move) → Address → Option Nat
  | [], _ => none
  | e :: h, b =>
    match done e with
    | some (op, t) => if op.executes = some b then some t.files.counter else lastSlash h b
    | none => lastSlash h b

/-- The slash the appeal of `b` opened last is about. -/
def lastAppeal : List (State × Move) → Address → Option Nat
  | [], _ => none
  | e :: h, b =>
    match done e with
    | some (op, _) => if op = .appealSlash b then (e.1.store.files.audit b).map (·.slashId) else lastAppeal h b
    | none => lastAppeal h b

/-- The call releases the escrow of slash `i`. -/
def Op.releases (h : List (State × Move)) (i : Nat) : Op → Bool
  | .releaseSlashEscrow _ b => lastSlash h b = some i
  | _ => false

/-- The escrow of slash `i` has been released to the treasury. -/
def released : List (State × Move) → Nat → Bool
  | [], _ => false
  | e :: h, i =>
    match done e with
    | some (op, _) => op.releases h i || released h i
    | none => released h i

/-- What the call, going through from `s` to `t`, returns out of slash `i` or
credits to the treasury from it. A recovery is paid out of the treasury: once the
slash has been credited there, it is no further disposal. -/
def disposal (h : List (State × Move)) (s : State) (t : Store) (i : Nat) : Op → Int
  | .reverseSlash _ i' _ => if i' = i then spent s.world s.store t else 0
  | .releaseSlashEscrow _ b => if lastSlash h b = some i then spent s.world s.store t else 0
  | .finalizeAppeal b | .voteAppeal _ b _ => if lastAppeal h b = some i then spent s.world s.store t else 0
  | .repay b _ =>
    if (s.store.files.audit b).map (·.slashId) = some i ∧ released h i = false then s.store.treasuries - t.treasuries
    else 0
  | _ => 0

/-- All that has been returned out of slash `i` or credited to the treasury from it. -/
def disposed : List (State × Move) → Nat → Int
  | [], _ => 0
  | e :: h, i =>
    match done e with
    | some (op, t) => disposal h e.1 t i op + disposed h i
    | none => disposed h i

/-- The call finds the funds of the slash where no other operation has disposed of them. -/
def FindsFunds (h : List (State × Move)) (s : State) : Op → Prop
  | .reverseSlash _ i _ => ∀ r, s.store.files.record i = some r → 0 < r.totalSlashed →
      r.recoveryAmount = 0 ∧ released h i = false
  | .releaseSlashEscrow _ b => ∀ i r, lastSlash h b = some i → s.store.files.record i = some r → 0 < r.totalSlashed →
      r.recoveryAmount = 0 ∧ r.reversed = false
  | .finalizeAppeal b => ∀ e, s.store.files.escrow b = some (.appealed e) → e.escrowAmount = 0
  | .voteAppeal voter b approve => CarriesAppeal s.store voter b approve →
      ∀ e, s.store.files.escrow b = some (.appealed e) → e.escrowAmount = 0
  | _ => True

/-- What the call slashes, or pays back of a slash, is a share of it: the configured
rates are what `set_config` accepts, which a change through the timelock is not held to. -/
def TakesShare (s : State) : Op → Prop
  | .executeSlashVote _ | .executePendingSlash _ => 0 ≤ s.world.config.slashBps
  | .repay b _ => ∀ r, s.store.files.audit b = some r → r.reversed = false → r.recoveryAmount ≤ 0 →
      (r.totalSlashed * s.world.config.recoveryPercentage).tdiv bpsDenominator ≤ r.totalSlashed
  | _ => True

section

variable {h : List (State × Move)} {s : State} {c : Call} {t : Store}

theorem lastSlash_done (hd : exec c s = .ok t) (b : Address) :
    lastSlash ((s, .call c) :: h) b = if c.op.executes = some b then some t.files.counter else lastSlash h b := by
  simp only [lastSlash, done_ok hd]

theorem released_done (hd : exec c s = .ok t) (i : Nat) :
    released ((s, .call c) :: h) i = (c.op.releases h i || released h i) := by
  simp only [released, done_ok hd]

theorem disposed_done (hd : exec c s = .ok t) (i : Nat) :
    disposed ((s, .call c) :: h) i = disposal h s t i c.op + disposed h i := by
  simp only [disposed, done_ok hd]

end

/-- The files agree with the history: every record's account is settled at most once. -/
structure Tracked (h : List (State × Move)) (f : SlashFiles) : Prop where
  filed : ∀ i r, f.record i = some r → i ≤ f.counter ∧ r.slashId = i
  amounts : ∀ i r, f.record i = some r → 0 ≤ r.recoveryAmount ∧ r.recoveryAmount ≤ r.totalSlashed
  audited : ∀ b r, f.audit b = some r → r.borrower = b ∧ f.record r.slashId = some r
  last : ∀ b i, lastSlash h b = some i → ∃ r, f.record i = some r ∧ r.borrower = b
  held : ∀ b amount release, f.escrow b = some (.slashed amount release) →
    ∃ i r, lastSlash h b = some i ∧ f.record i = some r ∧ r.totalSlashed = amount ∧ released h i = false
  balance : ∀ i r, f.record i = some r →
    disposed h i = if released h i = true ∨ r.reversed = true then r.totalSlashed else r.recoveryAmount
  fresh : ∀ i, f.counter < i → disposed h i = 0 ∧ released h i = false

namespace Tracked

variable {h h' : List (State × Move)} {f : SlashFiles}

theorem sound (hi : Tracked h f) : f.Sound := ⟨hi.filed, hi.audited⟩

/-- Histories that say the same of slashes. -/
theorem congr (hi : Tracked h f) (hlast : ∀ b, lastSlash h' b = lastSlash h b)
    (hrel : ∀ i, released h' i = released h i)
    (hdisp : ∀ i, disposed h' i = disposed h i) : Tracked h' f where
  filed := hi.filed
  amounts := hi.amounts
  audited := hi.audited
  last b i hb := hi.last b i (hlast b ▸ hb)
  held b amount release hb := by
    obtain ⟨i, r, hi', hr, hamount, hheld⟩ := hi.held b amount release hb
    exact ⟨i, r, (hlast b).trans hi', hr, hamount, (hrel i).trans hheld⟩
  balance i r hr := by rw [hdisp, hrel, hi.balance i r hr]
  fresh i hf := by rw [hdisp, hrel]; exact hi.fresh i hf

/-- An entry of the shape appeals write. -/
theorem setEscrow (hi : Tracked h f) (b : Address) (escrow : SlashEscrow) :
    Tracked h (f.setEscrow b (some (.appealed escrow))) where
  filed := hi.filed
  amounts := hi.amounts
  audited := hi.audited
  last := hi.last
  held b' amount release hb' := by
    by_cases hb : b' = b
    · subst hb
      cases (update_self ..).symm.trans hb'
    · exact hi.held b' amount release ((SlashFiles.escrow_of_ne hb).symm.trans hb')
  balance := hi.balance
  fresh := hi.fresh

/-- Another state of the account of slash `i`. -/
theorem put (hi : Tracked h f) {i : Nat} {r r' : SlashRecord} (hr : f.record i = some r) (hid : r'.slashId = r.slashId)
    (hb : r'.borrower = r.borrower) (htotal : r'.totalSlashed = r.totalSlashed)
    (hamounts : 0 ≤ r'.recoveryAmount ∧ r'.recoveryAmount ≤ r'.totalSlashed)
    (hlast : ∀ b, lastSlash h' b = lastSlash h b) (hrel : ∀ i, released h' i = released h i)
    (hother : ∀ j, j ≠ i → disposed h' j = disposed h j)
    (hself : disposed h' i = if released h i = true ∨ r'.reversed = true then r'.totalSlashed else r'.recoveryAmount) :
    Tracked h' (f.put i r.borrower r') := by
  have hrecord (j : Nat) : (f.put i r.borrower r').record j = if j = i then some r' else f.record j := update_apply ..
  have hmem (j : Nat) {u : SlashRecord} (hu : f.record j = some u) :
      ∃ u', (f.put i r.borrower r').record j = some u' ∧ u'.borrower = u.borrower ∧
        u'.totalSlashed = u.totalSlashed := by
    rw [hrecord]
    by_cases hj : j = i
    · subst hj
      cases hr.symm.trans hu
      exact ⟨r', if_pos rfl, hb, htotal⟩
    · exact ⟨u, (if_neg hj).trans hu, rfl, rfl⟩
  have hsound := hi.sound.put hr hid hb
  refine ⟨hsound.filed, fun j u hu => ?_, hsound.audited, fun b j hj => ?_, fun b amount release hheld => ?_,
    fun j u hu => ?_, fun j hj => ?_⟩
  · rw [hrecord] at hu
    split at hu
    case isTrue => cases hu; exact hamounts
    case isFalse => exact hi.amounts j u hu
  · obtain ⟨u, hu, hub⟩ := hi.last b j (hlast b ▸ hj)
    obtain ⟨u', hu', hub', -⟩ := hmem j hu
    exact ⟨u', hu', hub'.trans hub⟩
  · obtain ⟨j, u, hj, hu, hamount, hrel'⟩ := hi.held b amount release hheld
    obtain ⟨u', hu', -, htotal'⟩ := hmem j hu
    exact ⟨j, u', (hlast b).trans hj, hu', htotal'.trans hamount, (hrel j).trans hrel'⟩
  · rw [hrecord] at hu
    rw [hrel]
    split at hu
    case isTrue hj =>
      cases hu
      exact hj ▸ hself
    case isFalse hj => rw [hother j hj, hi.balance j u hu]
  · have hne : j ≠ i := by
      have := (hi.filed i r hr).1
      change f.counter < j at hj
      omega
    rw [hother j hne, hrel]
    exact hi.fresh j hj

/-- A new slash of `b`, of which nothing has been disposed of yet. -/
theorem addSlash (hi : Tracked h f) {b : Address} {record : SlashRecord} (release : Nat)
    (hid : record.slashId = f.counter + 1) (hb : record.borrower = b) (hrecovery : record.recoveryAmount = 0)
    (hstanding : record.reversed = false) (hnonneg : 0 ≤ record.totalSlashed)
    (hlast : ∀ b', lastSlash h' b' = if b' = b then some (f.counter + 1) else lastSlash h b')
    (hrel : ∀ i, released h' i = released h i) (hdisp : ∀ i, disposed h' i = disposed h i) :
    Tracked h' (f.addSlash b record release) := by
  have hself : (f.addSlash b record release).record (f.counter + 1) = some record := update_self ..
  have hold (j : Nat) {u : SlashRecord} (hu : f.record j = some u) :
      (f.addSlash b record release).record j = some u := hi.sound.addSlash_kept b record release hu
  have hsound := hi.sound.addSlash release hid hb
  obtain ⟨hzero, hheld⟩ := hi.fresh (f.counter + 1) (Nat.lt_succ_self _)
  refine ⟨hsound.filed, fun j u hu => ?_, hsound.audited, fun b' j hj => ?_, fun b' amount release' hentry => ?_,
    fun j u hu => ?_, fun j hj => ?_⟩
  · rcases SlashFiles.addSlash_cases hu with ⟨rfl, rfl⟩ | hu
    · rw [hrecovery]
      exact ⟨le_rfl, hnonneg⟩
    · exact hi.amounts j u hu
  · rw [hlast] at hj
    split at hj
    case isTrue hbb =>
      cases hj
      exact ⟨record, hself, hb.trans hbb.symm⟩
    case isFalse =>
      obtain ⟨u, hu, hub⟩ := hi.last b' j hj
      exact ⟨u, hold j hu, hub⟩
  · change update f.escrow b (some (.slashed record.totalSlashed release)) b' = some (.slashed amount release')
      at hentry
    rw [update_apply] at hentry
    rw [hlast]
    split at hentry
    case isTrue hbb =>
      cases hentry
      exact ⟨_, record, if_pos hbb, hself, rfl, (hrel _).trans hheld⟩
    case isFalse hbb =>
      obtain ⟨j, u, hj, hu, hamount, hrel'⟩ := hi.held b' amount release' hentry
      exact ⟨j, u, (if_neg hbb).trans hj, hold j hu, hamount, (hrel j).trans hrel'⟩
  · rw [hrel, hdisp]
    rcases SlashFiles.addSlash_cases hu with ⟨rfl, rfl⟩ | hu
    · rw [hzero, hheld, hstanding, hrecovery]
      rfl
    · exact hi.balance j u hu
  · rw [hrel, hdisp]
    exact hi.fresh j (Nat.lt_of_succ_lt hj)

/-- The escrow of `b` goes to the treasury, and with it the slash that filled it. -/
theorem release (hi : Tracked h f) {b : Address} {i : Nat} {r : SlashRecord} (hlasti : lastSlash h b = some i)
    (hr : f.record i = some r) (hfunds : 0 < r.totalSlashed → r.recoveryAmount = 0 ∧ r.reversed = false)
    (hheld : released h i = false) (hlast : ∀ b, lastSlash h' b = lastSlash h b)
    (hrel : ∀ j, released h' j = (decide (some i = some j) || released h j))
    (hdisp : ∀ j, disposed h' j = (if some i = some j then r.totalSlashed else 0) + disposed h j) :
    Tracked h' (f.setEscrow b none) where
  filed := hi.filed
  amounts := hi.amounts
  audited := hi.audited
  last b i hb := hi.last b i (hlast b ▸ hb)
  held b' amount release hb' := by
    have hne : b' ≠ b := by
      rintro rfl
      cases (update_self ..).symm.trans hb'
    obtain ⟨j, u, hj, hu, hamount, hrel'⟩ := hi.held b' amount release ((SlashFiles.escrow_of_ne hne).symm.trans hb')
    -- the slashes behind two borrowers are not the same
    have hij : ¬ some i = some j := by
      intro hij
      obtain ⟨v, hv, hvb⟩ := hi.last b i hlasti
      obtain ⟨v', hv', hvb'⟩ := hi.last b' j hj
      rw [Option.some.inj hij] at hv
      cases hv.symm.trans hv'
      exact hne (hvb'.symm.trans hvb)
    exact ⟨j, u, (hlast b').trans hj, hu, hamount, by rw [hrel, decide_eq_false hij, hrel']; rfl⟩
  balance j u hu := by
    rw [hdisp, hrel, hi.balance j u hu]
    by_cases hij : some i = some j
    · cases hij
      cases hr.symm.trans hu
      have hamounts := hi.amounts i r hr
      simp only [if_true, hheld, decide_true, Bool.true_or, true_or, Bool.false_eq_true, false_or]
      split
      · by_cases hpos : 0 < r.totalSlashed
        · rw [(hfunds hpos).2] at *
          contradiction
        · omega
      · by_cases hpos : 0 < r.totalSlashed
        · rw [(hfunds hpos).1, add_zero]
        · omega
    · rw [if_neg hij, decide_eq_false hij, Bool.false_or, zero_add]
  fresh j hj := by
    have hne : ¬ some i = some j := by
      rintro ⟨⟩
      exact absurd (hi.filed i r hr).1 (Nat.not_le.2 hj)
    rw [hdisp, hrel, if_neg hne, decide_eq_false hne, Bool.false_or, zero_add]
    exact hi.fresh j hj

end Tracked

/-! ## Every call -/

/-- A call that neither executes a slash nor releases an escrow leaves its mark in the account only. -/
theorem lastSlash_same {h : List (State × Move)} {s : State} {c : Call} {t : Store} (hd : exec c s = .ok t)
    (hop : c.op.executes = none) (b : Address) : lastSlash ((s, .call c) :: h) b = lastSlash h b := by
  rw [lastSlash_done hd, hop]
  exact if_neg nofun

theorem Tracked.step {h : List (State × Move)} {s : State} {c : Call} {t : Store} (hi : Tracked h s.store.files)
    (hd : exec c s = .ok t) (hwell : ∀ b, WellFormed (s.store.records b)) (hp : FindsFunds h s c.op)
    (hshare : TakesShare s c.op) : Tracked ((s, .call c) :: h) t.files := by
  have he := slashEffect_of hd
  have hrel := released_done (h := h) hd
  have hdisp := disposed_done (h := h) hd
  have hlast := lastSlash_done (h := h) hd
  have hlast' := lastSlash_same (h := h) hd
  obtain ⟨signers, op⟩ := c
  simp only at he hrel hdisp hlast hlast' hp hshare
  cases he with
  | kept hop hfiles =>
    have hquiet : op.executes = none ∧ (∀ i, op.releases h i = false) ∧ ∀ i, disposal h s t i op = 0 := by
      cases op <;> first | exact ⟨rfl, fun _ => rfl, fun _ => rfl⟩ | cases hop
    rw [hfiles]
    refine hi.congr (hlast' hquiet.1) (fun i => ?_) fun i => ?_
    · rw [hrel, hquiet.2.1, Bool.false_or]
    · rw [hdisp, hquiet.2.2, zero_add]
  | @executed _ b record hop hfiled =>
    have hquiet : (∀ i, op.releases h i = false) ∧ ∀ i, disposal h s t i op = 0 := by
      cases op <;> first | exact ⟨fun _ => rfl, fun _ => rfl⟩ | cases hop
    have hbps : 0 ≤ s.world.config.slashBps := by cases op <;> first | exact hshare | cases hop
    have hcounter : t.files.counter = s.store.files.counter + 1 := by rw [hfiled.files]; rfl
    rw [hfiled.files]
    refine hi.addSlash _ hfiled.id hfiled.borrower hfiled.recovery hfiled.standing
      (hfiled.nonneg hbps (hwell b).staked) (fun b' => ?_) (fun i => ?_) fun i => ?_
    · rw [hlast, hop, hcounter]
      by_cases hb : b' = b
      · rw [if_pos hb, hb, if_pos rfl]
      · rw [if_neg hb, if_neg fun hbb => hb (Option.some.inj hbb).symm]
    · rw [hrel, hquiet.1, Bool.false_or]
    · rw [hdisp, hquiet.2, zero_add]
  | @reversed signers' i reason r reversal hr hstanding hfiles hspent =>
    rw [hfiles]
    have hamounts := hi.amounts i r hr
    have hbalance := hi.balance i r hr
    have hbefore : disposed h i = 0 := by
      by_cases hpos : 0 < r.totalSlashed
      · obtain ⟨hrecovery, hheld⟩ := hp r hr hpos
        rw [hbalance, hheld, hstanding, hrecovery]
        rfl
      · rw [hbalance]
        split <;> omega
    refine hi.put hr rfl rfl rfl hamounts (hlast' rfl) (fun j => ?_) (fun j hj => ?_) ?_
    · rw [hrel]
      exact Bool.false_or _
    · rw [hdisp, disposal, if_neg fun hij => hj hij.symm, zero_add]
    · rw [hdisp, disposal, if_pos rfl, hspent, hbefore, add_zero]
      exact (if_pos (.inr rfl)).symm
  | @released signers' b amount release hentry hdue hfiles hspent =>
    rw [hfiles]
    obtain ⟨i, r, hlasti, hr, hamount, hheld⟩ := hi.held b amount release hentry
    refine hi.release hlasti hr (hp i r hlasti hr) hheld (hlast' rfl) (fun j => ?_) fun j => ?_
    · rw [hrel, Op.releases, hlasti]
    · rw [hdisp, disposal, hlasti, hspent, hamount]
  | @appealed b record escrow hshape haudit htotal hfiles =>
    rw [hfiles]
    refine (hi.congr (hlast' rfl) (fun i => ?_) fun i => ?_).setEscrow b escrow
    · rw [hrel]
      exact Bool.false_or _
    · rw [hdisp]
      exact zero_add _
  | voted hescrow hno hfiles hspent =>
    rw [hfiles]
    refine hi.congr (hlast' rfl) (fun i => ?_) fun i => ?_
    · rw [hrel]
      exact Bool.false_or _
    · rw [hdisp, disposal, hspent, ite_self, zero_add]
  | @decided _ b escrow status hop hescrow hfiles hspent =>
    rw [hfiles]
    have hquiet : op.executes = none ∧ (∀ i, op.releases h i = false) ∧ ∀ i, disposal h s t i op = 0 := by
      cases op with
      | finalizeAppeal b' =>
        cases hop
        refine ⟨rfl, fun _ => rfl, fun i => ?_⟩
        rw [disposal, hspent (hp escrow hescrow), ite_self]
      | voteAppeal voter b' approve =>
        obtain ⟨rfl, hcarries⟩ := hop
        refine ⟨rfl, fun _ => rfl, fun i => ?_⟩
        rw [disposal, hspent (hp hcarries escrow hescrow), ite_self]
      | _ => exact hop.elim
    refine (hi.congr (hlast' hquiet.1) (fun i => ?_) fun i => ?_).setEscrow b _
    · rw [hrel, hquiet.2.1, Bool.false_or]
    · rw [hdisp, hquiet.2.2, zero_add]
  | repaid hslashing =>
    have hfiles : t.files = s.store.files := congrArg Slashing.files hslashing
    have htreasuries : t.treasuries = s.store.treasuries := congrArg Slashing.treasuries hslashing
    rw [hfiles]
    refine hi.congr (hlast' rfl) (fun i => ?_) fun i => ?_
    · rw [hrel]
      exact Bool.false_or _
    · rw [hdisp, disposal, htreasuries, Int.sub_self, ite_self, zero_add]
  | @recovered b payment r amount hrec =>
    obtain ⟨rfl, hr⟩ := hi.audited b r hrec.audit
    have hamounts := hi.amounts _ r hr
    have hzero : r.recoveryAmount = 0 := le_antisymm hrec.first hamounts.1
    have hle : amount ≤ r.totalSlashed := hrec.share ▸ hshare r hrec.audit hrec.standing hrec.first
    rw [hrec.files]
    refine hi.put hr rfl rfl rfl ⟨hrec.pos.le, hle⟩ (hlast' rfl) (fun j => ?_) (fun j hj => ?_) ?_
    · rw [hrel]
      exact Bool.false_or _
    · rw [hdisp, disposal, hrec.audit, if_neg fun hij => hj (Option.some.inj hij.1).symm, zero_add]
    · rw [hdisp, disposal, hrec.audit, hrec.deducted, hi.balance _ r hr, hrec.standing, hzero]
      by_cases hheld : released h r.slashId = true
      · simp [hheld]
      · simp [hheld]

theorem History.tracked {h : List (State × Move)} {s : State} (hr : History h s)
    (hok : Throughout (fun h => WhenDone fun s op => FindsFunds h s op ∧ TakesShare s op) h) :
    Tracked h s.store.files := by
  refine History.inv_throughout (p := fun h s op => FindsFunds h s op ∧ TakesShare s op)
    (I := fun h s => Tracked h s.store.files) (fun _ _ => ?_) (fun hr hi hd hp => ?_) (fun hi he => ?_)
    (fun hi _ _ => ?_) hr hok
  · exact ⟨nofun, nofun, nofun, nofun, nofun, nofun, fun _ _ => ⟨rfl, rfl⟩⟩
  · exact hi.step hd (fun b => Reachable.wellFormed ⟨_, hr⟩ b) hp.1 hp.2
  · have hnone := done_error he
    refine hi.congr (fun b => ?_) (fun i => ?_) fun i => ?_
    · simp only [lastSlash, hnone]
    · simp only [released, hnone]
    · simp only [disposed, hnone]
  · exact hi.congr (fun _ => rfl) (fun _ => rfl) fun _ => rfl

/-- What is returned out of a slash and credited to the treasury from it never
exceeds what was slashed, in every run in which each operation finds the funds
where no other has disposed of them and takes a share of them. -/
theorem slash_disposed_at_most_once {h : List (State × Move)} {s : State} (hr : History h s)
    (hok : Throughout (fun h => WhenDone fun s op => FindsFunds h s op ∧ TakesShare s op) h) {i : Nat}
    {record : SlashRecord} (hrecord : s.store.slashing.slashRecord i = some record) :
    disposed h i ≤ record.totalSlashed := by
  have hi := hr.tracked hok
  have hrecord : s.store.files.record i = some record := hrecord
  rw [hi.balance i record hrecord]
  split
  · exact le_rfl
  · exact (hi.amounts i record hrecord).2

/-- The slash that was voted for, executed. -/
def executedSlash : List Act := votedLoan ++ [.call [1] (.executePendingSlash 10)]

/-- The slash, reversed with its escrow untouched. -/
theorem slash_disposed_at_most_once_reversed :
    ∃ h s record, History h s ∧ s.store.slashing.slashRecord 1 = some record ∧ 0 < disposed h 1 ∧
      disposed h 1 ≤ record.totalSlashed := by
  have hr := start_history executedSlash
  have hvalid := (start_valid executedSlash).1.throughout
  have hvoted : Throughout (fun h => WhenDone fun s op =>
      s.world.config.Valid → FindsFunds h s op ∧ TakesShare s op) (start.trace [] executedSlash) := by
    refine throughout_trace _ (h := []) trivial fun b hb h s => ?_
    simp only [executedSlash, votedLoan, poolLoan, List.cons_append, List.nil_append, List.mem_cons, List.not_mem_nil,
      or_false] at hb
    rcases hb with rfl | rfl | rfl | rfl
    · exact fun _ _ => ⟨trivial, trivial⟩
    · exact fun _ _ => ⟨trivial, trivial⟩
    · exact fun _ _ => ⟨trivial, trivial⟩
    · exact fun _ hcfg => ⟨trivial, hcfg.slashBps.1.le⟩
  have hquiet : Throughout (fun h => WhenDone fun s op => FindsFunds h s op ∧ TakesShare s op)
      (start.trace [] executedSlash) := by
    refine (hvalid.and hvoted).mono fun h s m hm => ?_
    cases m with
    | call c => exact fun hd => hm.2 hd hm.1
    | elsewhere => trivial
  have hrecovery : ((start.play executedSlash).store.files.record 1).map (·.recoveryAmount) =
      some 0 := by decide +kernel
  have hheld : released (start.trace [] executedSlash) 1 = false := by decide +kernel
  have hsome : (((start.play executedSlash).after ⟨[1], .reverseSlash [1] 1 "appeal"⟩).store.slashing.slashRecord
      1).isSome = true := by decide +kernel
  have hpaid : 0 < disposed ((start.play executedSlash, .call ⟨[1], .reverseSlash [1] 1 "appeal"⟩) ::
      start.trace [] executedSlash) 1 := by decide +kernel
  generalize start.play executedSlash = s at *
  generalize start.trace [] executedSlash = h at *
  have hfinds : WhenDone (fun s op => FindsFunds h s op ∧ TakesShare s op) s
      (.call ⟨[1], .reverseSlash [1] 1 "appeal"⟩) := by
    refine fun _ => ⟨fun r hrecord _ => ?_, trivial⟩
    rw [hrecord] at hrecovery
    exact ⟨Option.some.inj hrecovery, hheld⟩
  obtain ⟨record, hrecord⟩ := Option.isSome_iff_exists.1 hsome
  have hr' := hr.step (Step.after s ⟨[1], .reverseSlash [1] 1 "appeal"⟩)
  exact ⟨_, _, record, hr', hrecord, hpaid,
    slash_disposed_at_most_once hr' ⟨hquiet, hfinds⟩ hrecord⟩

/-- The escrow released to the treasury; then, the entry being gone, an appeal opened and rejected. -/
def releasedAndAppealed : List Act :=
  executedSlash ++ [.wait 2592000, .call [1] (.releaseSlashEscrow [1] 10), .call [10] (.appealSlash 10), .wait 604800,
    .call [1] (.finalizeAppeal 10)]

/-- Both the release and the rejected appeal credit the whole slash to the treasury. -/
theorem slash_credited_twice :
    ∃ h s record, History h s ∧ Along (fun s _ => s.world.config.Valid) h ∧
      s.store.slashing.slashRecord 1 = some record ∧ record.totalSlashed < disposed h 1 := by
  have hr := start_history releasedAndAppealed
  have hvalid := start_valid releasedAndAppealed
  have hover : ((start.play releasedAndAppealed).store.slashing.slashRecord 1).any
      (fun r => r.totalSlashed < disposed (start.trace [] releasedAndAppealed) 1) = true := by decide +kernel
  generalize start.play releasedAndAppealed = s at *
  generalize start.trace [] releasedAndAppealed = h at *
  cases hrecord : s.store.slashing.slashRecord 1 with
  | none =>
    rw [hrecord] at hover
    cases hover
  | some record =>
    rw [hrecord] at hover
    exact ⟨h, s, record, hr, hvalid.1, hrecord, of_decide_eq_true hover⟩

end QuorumCredit
