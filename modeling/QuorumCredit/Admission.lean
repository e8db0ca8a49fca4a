import QuorumCredit.Stakes
/-!
# Who may vouch, and for whom

`validate_vouch` refuses a vouch for oneself, for a blacklisted borrower, beyond
the limit of vouchers and during an active loan. The operations that hand a
record on check less: a transfer looks at neither the new owner, the blacklist
nor the limit, a split at none of these, and a rotation asks about the loan of
the old borrower instead of the new one's. What they leave out is exactly what
keeps each rule from holding.
-/

open Host Function

namespace QuorumCredit

/-! ## Nobody vouches for themselves -/

/-- The call hands no record to the borrower it is behind. -/
def Op.namesAnother : Op → Prop
  | .transferVouch _ dst borrower => dst ≠ borrower
  | .splitVouch _ borrower newVoucher _ => newVoucher ≠ borrower
  | .rotateToNewBorrower voucher _ newBorrower => voucher ≠ newBorrower
  | _ => True

/-- Every record is somebody else's. -/
def Others (xs : Records) : Prop := ∀ b, ∀ v ∈ xs b, v.voucher ≠ b

variable {b : Address} {vouches : List VouchRecord}

theorem Others.update {xs : Records} (h : Others xs) (hb : ∀ v ∈ vouches, v.voucher ≠ b) :
    Others (update xs b vouches) := by
  intro a v hv
  rw [update_apply] at hv
  split at hv
  case isTrue ha => exact ha ▸ hb v hv
  case isFalse => exact h a v hv

theorem mem_setStake_voucher {voucher : Address} {stake : Int} {u : VouchRecord}
    (h : u ∈ setStake voucher stake vouches) : ∃ v ∈ vouches, v.voucher = u.voucher := by
  have hkey := List.mem_map_of_mem (f := VouchRecord.key) h
  rw [setStake_keys] at hkey
  obtain ⟨v, hv, hkey⟩ := List.mem_map.1 hkey
  exact ⟨v, hv, (Prod.mk.inj hkey).1⟩

theorem Others.setStake {xs : Records} (h : Others xs) {voucher : Address} {stake : Int} :
    ∀ v ∈ setStake voucher stake (xs b), v.voucher ≠ b := by
  intro u hu
  obtain ⟨v, hv, hname⟩ := mem_setStake_voucher hu
  exact hname ▸ h b v hv

theorem Others.append {xs : Records} {record : VouchRecord} (h : ∀ v ∈ vouches, v.voucher ≠ b)
    (hrecord : record.voucher ≠ b) (hxs : Others xs) : Others (Function.update xs b (vouches ++ [record])) := by
  refine hxs.update fun v hv => ?_
  rcases List.mem_append.1 hv with hv | hv
  · exact h v hv
  · rw [List.mem_singleton.1 hv]
    exact hrecord

theorem Added.others {w : World} {k : LoanBook} {xs ys : Records} (ha : Added w k xs ys) (h : Others xs) :
    Others ys := by
  induction ha with
  | nil => exact h
  | cons hnew _ ih => exact ih (.append (h _) hnew.other h)

theorem VouchEffect.others {w : World} {s t : Store} {op : Op} (he : VouchEffect w s t op) (h : Others s.records)
    (hop : op.namesAnother) : Others t.records := by
  cases he with
  | dropped b _ hdrop =>
    obtain ⟨rest, hrest, ht⟩ := hdrop
    rw [ht]
    exact h.update fun v hv => h b v (hrest.subset hv)
  | restaked b _ hfind hpos ht =>
    rw [ht]
    exact h.update h.setStake
  | added _ ha => exact ha.others h
  | @transferred src dst b v hfind _ _ ht =>
    rw [ht]
    refine h.update fun u hu => ?_
    rcases mem_setVoucher hu with hu | ⟨v, -, rfl⟩
    · exact h b u hu
    · exact hop
  | split _ _ _ hvoucher _ _ _ _ ht =>
    rw [ht]
    exact .append h.setStake (hvoucher ▸ hop) h
  | rotated _ _ hvoucher _ _ _ _ ht =>
    rw [ht]
    exact .append (h _) (hvoucher ▸ hop) (h.update fun v hv => h _ v (mem_removeVouch hv))

/-- While no transfer, split or rotation that goes through hands a record to the
borrower it is behind, nobody vouches for themselves. -/
theorem nobody_vouches_for_themselves {h : List (State × Move)} {s : State} (hr : History h s)
    (hok : Along (WhenDone fun _ op => op.namesAnother) h) (b : Address) : ∀ v ∈ s.store.records b, v.voucher ≠ b := by
  refine History.inv (p := fun _ op => op.namesAnother) (I := fun _ s => Others s.store.records)
    (fun _ _ _ _ hv => by cases hv) (fun _ hs hd hop => ?_) (fun hs _ => hs) (fun hs _ _ => hs) hr hok b
  exact (vouchEffect_of hd).others hs hop

/-- Account 2 vouches for account 10 and hands the record to account 3. -/
def handedOn : List Act :=
  [.call [2] (.vouch 2 10 1000000 100 0), .call [2] (.transferVouch 2 3 10)]

theorem nobody_vouches_for_themselves_handedOn :
    ((start.play handedOn).store.records 10).map (·.voucher) = [3] ∧
      ∀ v ∈ (start.play handedOn).store.records 10, v.voucher ≠ 10 := by
  refine ⟨by decide +kernel, nobody_vouches_for_themselves
    ((History.genesis sampleWorld sampleBank).play handedOn) ?_ 10⟩
  rintro ⟨s, m⟩ hmem
  cases m with
  | elsewhere => trivial
  | call c =>
    intro _
    rcases act_of_mem_trace hmem with hmem | hmem
    · cases hmem
    · simp only [handedOn, List.mem_cons, Act.call.injEq, List.not_mem_nil, or_false] at hmem
      rcases hmem with ⟨-, hop⟩ | ⟨-, hop⟩ <;> rw [hop] <;> simp [Op.namesAnother]

/-- A record handed to the borrower it is behind: account 10 vouches for itself. -/
theorem borrower_vouches_for_itself :
    ∃ s, Reachable s ∧ ∃ v ∈ s.store.records 10, v.voucher = 10 :=
  ⟨_, Reachable.script sampleWorld sampleBank
    [.call [2] (.vouch 2 10 1000000 100 0), .call [2] (.transferVouch 2 10 10)], by decide +kernel⟩

/-! ## The rules of admission -/

/-- The call puts a record behind `b` in a pair of voucher and token that had none there. -/
def AddsTo (s t : Store) (b : Address) : Prop :=
  ∃ v ∈ t.records b, v.key ∉ (s.records b).map VouchRecord.key

/-- What a vouch leaves behind it: `b` is not blacklisted, the limit is kept, and `b` has no active loan. -/
structure Admitted (w : World) (t : Store) (b : Address) : Prop where
  blacklisted : w.blacklisted b = false
  room : (t.records b).length ≤ w.vouchConfig.maxVouchersPerBorrower
  idle : t.book.hasActiveLoan b = false

/-- The rules the operation does not check itself hold. -/
def FollowsRules (s : State) : Op → Prop
  | .transferVouch _ _ b =>
    s.world.blacklisted b = false ∧ (s.store.records b).length ≤ s.world.vouchConfig.maxVouchersPerBorrower
  | .splitVouch _ b _ _ =>
    s.world.blacklisted b = false ∧ (s.store.records b).length < s.world.vouchConfig.maxVouchersPerBorrower
  | .rotateToNewBorrower _ _ b =>
    s.world.blacklisted b = false ∧ (s.store.records b).length < s.world.vouchConfig.maxVouchersPerBorrower ∧
      s.store.book.hasActiveLoan b = false
  | _ => True

theorem setStake_length (voucher : Address) (stake : Int) (vouches : List VouchRecord) :
    (setStake voucher stake vouches).length = vouches.length := by
  have h := congrArg List.length (setStake_keys voucher stake vouches)
  rwa [List.length_map, List.length_map] at h

theorem setVoucher_length (src dst : Address) (vouches : List VouchRecord) :
    (setVoucher src dst vouches).length = vouches.length := by
  induction vouches with
  | nil => rfl
  | cons v vs ih =>
    rw [setVoucher]
    split
    · rfl
    · rw [List.length_cons, List.length_cons, ih]

theorem mem_setVoucher_self {src dst : Address} {v : VouchRecord} (h : findVouch src vouches = some v) :
    { v with voucher := dst } ∈ setVoucher src dst vouches := by
  induction vouches with
  | nil => cases h
  | cons w ws ih =>
    rw [setVoucher]
    by_cases hw : w.voucher = src
    · rw [findVouch, List.find?_cons_of_pos (by simpa using hw)] at h
      cases h
      rw [if_pos hw]
      exact List.mem_cons_self
    · rw [findVouch, List.find?_cons_of_neg (by simpa using hw)] at h
      rw [if_neg hw]
      exact List.mem_cons_of_mem w (ih h)

/-- Where no new pair can be, nothing is added. -/
theorem not_addsTo {s t : Store} (h : ∀ v ∈ t.records b, v.key ∈ (s.records b).map VouchRecord.key) :
    ¬ AddsTo s t b := by
  rintro ⟨v, hv, hnew⟩
  exact hnew (h v hv)

theorem not_addsTo_of_eq {s t : Store} (h : t.records b = s.records b) : ¬ AddsTo s t b :=
  not_addsTo fun _ hv => List.mem_map_of_mem (h ▸ hv)

/-- The record of a pair that had none. -/
theorem AddsTo.of_mem {s t : Store} {v : VouchRecord} (hv : v ∈ t.records b)
    (hnew : ∀ u ∈ s.records b, ¬ (u.voucher = v.voucher ∧ u.token = v.token)) : AddsTo s t b := by
  refine ⟨v, hv, fun hmem => ?_⟩
  obtain ⟨u, hu, hkey⟩ := List.mem_map.1 hmem
  exact hnew u hu (Prod.mk.inj hkey)

/-- Behind each borrower, vouching leaves the records as they are or has checked every rule. -/
theorem Added.admitted {w : World} {k : LoanBook} {xs ys : Records} (ha : Added w k xs ys) (b : Address) :
    ys b = xs b ∨ w.blacklisted b = false ∧ (ys b).length ≤ w.vouchConfig.maxVouchersPerBorrower ∧
      k.hasActiveLoan b = false := by
  induction ha with
  | nil => exact .inl rfl
  | @cons xs b' record ys hnew _ ih =>
    rcases ih with heq | hadmitted
    · rw [update_apply] at heq
      split at heq
      case isTrue hb =>
        subst hb
        refine .inr ⟨hnew.admitted, ?_, hnew.idle⟩
        rw [heq, List.length_append]
        exact hnew.room
      case isFalse => exact .inl heq
    · exact .inr hadmitted

/-- Where only the records behind `b'` change and one is added there, the rules
that count are those for `b'`. -/
theorem forall_addsTo_iff {w : World} {s t : Store} {b' : Address} (hadds : AddsTo s t b')
    (hrest : ∀ b, b ≠ b' → ¬ AddsTo s t b) : (∀ b, AddsTo s t b → Admitted w t b) ↔ Admitted w t b' := by
  refine ⟨fun h => h b' hadds, fun h b hb => ?_⟩
  by_cases hbb : b = b'
  · exact hbb ▸ h
  · exact absurd hb (hrest b hbb)

theorem followsRules_of_not_handsOn {s : State} {op : Op} (h : op.handsOn = false) : FollowsRules s op := by
  cases op with
  | transferVouch => cases h
  | splitVouch => cases h
  | rotateToNewBorrower => cases h
  | _ => trivial

/-- Every borrower a successful call adds a record behind is admitted under the
rules of `vouch` exactly where the call follows those it does not check. -/
theorem additions_admitted_iff {s : State} {c : Call} {t : Store} (h : exec c s = .ok t) :
    (∀ b, AddsTo s.store t b → Admitted s.world t b) ↔ FollowsRules s c.op := by
  have he := vouchEffect_of h
  obtain ⟨signers, op⟩ := c
  simp only at he ⊢
  cases he with
  | dropped b' hop hdrop =>
    obtain ⟨rest, hrest, ht⟩ := hdrop
    refine iff_of_true (fun b hb => absurd hb (not_addsTo fun v hv => ?_)) (followsRules_of_not_handsOn hop)
    rw [ht, update_apply] at hv
    split at hv
    case isTrue hbb => exact List.mem_map_of_mem (hbb ▸ hrest.subset hv)
    case isFalse => exact List.mem_map_of_mem hv
  | restaked b' hop hfind hpos ht =>
    refine iff_of_true (fun b hb => absurd hb (not_addsTo fun v hv => ?_)) (followsRules_of_not_handsOn hop)
    rw [ht, update_apply] at hv
    split at hv
    case isTrue hbb =>
      rw [hbb, ← setStake_keys]
      exact List.mem_map_of_mem hv
    case isFalse => exact List.mem_map_of_mem hv
  | added hop ha =>
    refine iff_of_true (fun b hb => ?_) (followsRules_of_not_handsOn hop)
    rcases ha.admitted b with heq | ⟨hblack, hroom, hidle⟩
    · exact absurd hb (not_addsTo_of_eq heq)
    · exact ⟨hblack, hroom, hidle⟩
  | @transferred src dst b' v hfind hnew hidle ht =>
    have hself : t.records b' = setVoucher src dst (s.store.records b') := by rw [ht, update_self]
    have hadds : AddsTo s.store t b' := .of_mem (hself ▸ mem_setVoucher_self hfind) hnew
    rw [forall_addsTo_iff hadds fun b hb => not_addsTo_of_eq (by rw [ht, update_of_ne hb])]
    have hlength : (t.records b').length = (s.store.records b').length := by rw [hself, setVoucher_length]
    exact ⟨fun h => ⟨h.blacklisted, hlength ▸ h.room⟩, fun h => ⟨h.1, hlength ▸ h.2, hidle⟩⟩
  | @split voucher b' newVoucher amount v record hfind hpos hlt hvoucher htoken hstake hnew hidle ht =>
    have hself : t.records b' = setStake voucher (v.stake - amount) (s.store.records b') ++ [record] := by
      rw [ht, update_self]
    have hmem : record ∈ t.records b' := hself ▸ List.mem_append_right _ List.mem_cons_self
    have hadds : AddsTo s.store t b' := .of_mem hmem (by rw [hvoucher, htoken]; exact hnew)
    rw [forall_addsTo_iff hadds fun b hb => not_addsTo_of_eq (by rw [ht, update_of_ne hb])]
    have hlength : (t.records b').length = (s.store.records b').length + 1 := by
      rw [hself, List.length_append, setStake_length, List.length_singleton]
    exact ⟨fun h => ⟨h.blacklisted, by have := h.room; omega⟩, fun h => ⟨h.1, by have := h.2; omega, hidle⟩⟩
  | @rotated voucher old new v record hfind hne hvoucher htoken hstake hnew hbook ht =>
    have hself : t.records new = s.store.records new ++ [record] := by rw [ht, update_self]
    have hmem : record ∈ t.records new := hself ▸ List.mem_append_right _ List.mem_cons_self
    have hadds : AddsTo s.store t new := .of_mem hmem (by rw [hvoucher, htoken]; exact hnew)
    have hrest (b) (hb : b ≠ new) : ¬ AddsTo s.store t b := by
      refine not_addsTo fun u hu => List.mem_map_of_mem ?_
      rw [ht, update_of_ne hb, update_apply] at hu
      split at hu
      case isTrue hold => exact hold ▸ mem_removeVouch hu
      case isFalse => exact hu
    rw [forall_addsTo_iff hadds hrest]
    have hlength : (t.records new).length = (s.store.records new).length + 1 := by
      rw [hself, List.length_append, List.length_singleton]
    refine ⟨fun h => ⟨h.blacklisted, ?_, hbook ▸ h.idle⟩, fun h => ⟨h.1, ?_, hbook ▸ h.2.2⟩⟩
    · have := h.room
      omega
    · have := h.2.1
      omega

/-- The hand-over of account 2's record leaves account 10 within every rule. -/
theorem additions_admitted_iff_transfer :
    let s := start.play [.call [2] (.vouch 2 10 1000000 100 0)]
    (exec ⟨[2], .transferVouch 2 3 10⟩ s).toBool = true ∧
      ((∀ b, AddsTo s.store (s.after ⟨[2], .transferVouch 2 3 10⟩).store b →
          Admitted s.world (s.after ⟨[2], .transferVouch 2 3 10⟩).store b) ↔
        s.world.blacklisted 10 = false ∧ (s.store.records 10).length ≤ 50) := by
  intro s
  have hok : (exec ⟨[2], .transferVouch 2 3 10⟩ s).toBool = true := by decide +kernel
  exact ⟨hok, additions_admitted_iff (exec_after hok)⟩

/-- A rotation moves a record behind account 11, which has an active loan. -/
theorem rotation_ignores_loan :
    ∃ s, Reachable s ∧ ∃ t, exec ⟨[2], .rotateToNewBorrower 2 10 11⟩ s = .ok t ∧ AddsTo s.store t 11 ∧
      ¬ Admitted s.world t 11 := by
  let s := start.play [.call [2] (.vouch 2 10 1000000 100 0), .call [3] (.vouch 3 11 1000000 100 0),
    .call [1] (.createLoanPool [1] [11] [500000])]
  have hok : (exec ⟨[2], .rotateToNewBorrower 2 10 11⟩ s).toBool = true := by decide +kernel
  refine ⟨s, Reachable.script sampleWorld sampleBank _, _, exec_after hok, ?_, fun h => ?_⟩
  · have hadds : ∃ v ∈ (s.after ⟨[2], .rotateToNewBorrower 2 10 11⟩).store.records 11,
        v.key ∉ (s.store.records 11).map VouchRecord.key := by decide +kernel
    exact hadds
  · have hactive : (s.after ⟨[2], .rotateToNewBorrower 2 10 11⟩).store.book.hasActiveLoan 11 = true := by decide +kernel
    rw [h.idle] at hactive
    cases hactive

end QuorumCredit
