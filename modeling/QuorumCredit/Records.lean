import QuorumCredit.Staking
import QuorumCredit.Host.Stable
/-!
# What a call does to the vouch records

`VouchEffect` lists the ways a call changes the records behind borrowers, with
what the code has checked at that point: some of a borrower's records go, one
has its stake changed, one is added, renamed, split or moved. The theorems about
vouch records are case analyses over it.
-/

open Host Function

namespace QuorumCredit

/-! ## Lists of records -/

variable {voucher : Address} {vouches : List VouchRecord}

theorem removeVouch_of_none (h : findVouch voucher vouches = none) : removeVouch voucher vouches = vouches := by
  rw [findVouch, List.find?_eq_none] at h
  induction vouches with
  | nil => rfl
  | cons u us ih =>
    obtain ⟨hu, hus⟩ := List.forall_mem_cons.1 h
    rw [removeVouch, if_neg (by simpa using hu), ih hus]

theorem removeVouch_sublist (voucher : Address) (vouches : List VouchRecord) :
    (removeVouch voucher vouches).Sublist vouches := by
  induction vouches with
  | nil => exact .slnil
  | cons u us ih =>
    rw [removeVouch]
    split
    · exact .cons u (List.Sublist.refl us)
    · exact ih.cons_cons u

theorem mem_removeVouch {v : VouchRecord} (h : v ∈ removeVouch voucher vouches) : v ∈ vouches :=
  (removeVouch_sublist voucher vouches).subset h

theorem mem_setStake {stake : Int} {v : VouchRecord} (h : v ∈ setStake voucher stake vouches) :
    v ∈ vouches ∨ v.stake = stake := by
  induction vouches with
  | nil => exact .inl h
  | cons u us ih =>
    simp only [setStake] at h
    split at h
    · rcases List.mem_cons.1 h with rfl | h
      · exact .inr rfl
      · exact .inl (List.mem_cons_of_mem u h)
    · rcases List.mem_cons.1 h with rfl | h
      · exact .inl (List.mem_cons_self ..)
      · exact (ih h).imp_left (List.mem_cons_of_mem u)

/-! ## Records -/

/-- The storage entries of the records. -/
def Vault.entries (x : Vault) : Address → Option (List VouchRecord) := x.vouching.vouches

def Store.entries (s : Store) : Address → Option (List VouchRecord) := s.vault.entries

instance : Inside Vault.entries Vouching Vouching.vouches where
instance : Apart Vault.entries Ledger where
instance : Apart Store.entries Access where
instance : Apart Store.entries Ballots where
instance : Apart Store.entries Slashing where

namespace Vouching

theorem vouchesOf_setVouches (x : Vouching) (b : Address) (vouches : List VouchRecord) (a : Address) :
    (x.setVouches b vouches).vouchesOf a = if a = b then vouches else x.vouchesOf a := by
  change (update x.vouches b (some vouches) a).getD [] = _
  by_cases h : a = b
  · rw [h, if_pos rfl, update_self]; rfl
  · rw [if_neg h, update_of_ne h]; rfl

theorem vouchesOf_removeVouches (x : Vouching) (b a : Address) :
    (x.removeVouches b).vouchesOf a = if a = b then [] else x.vouchesOf a := by
  change (update x.vouches b none a).getD [] = _
  by_cases h : a = b
  · rw [h, if_pos rfl, update_self]; rfl
  · rw [if_neg h, update_of_ne h]; rfl

theorem setVouches_records (x : Vouching) (b : Address) (vouches : List VouchRecord) :
    (x.setVouches b vouches).vouchesOf = update x.vouchesOf b vouches := by
  funext a
  rw [vouchesOf_setVouches, update_apply]

theorem removeVouches_records (x : Vouching) (b : Address) :
    (x.removeVouches b).vouchesOf = update x.vouchesOf b [] := by
  funext a
  rw [vouchesOf_removeVouches, update_apply]

/-- Vouchings that agree on the entries agree on the records. -/
theorem vouchesOf_congr {x y : Vouching} (h : y.vouches = x.vouches) : y.vouchesOf = x.vouchesOf := by
  funext a
  rw [vouchesOf, vouchesOf, h]

/-- Only the history of the voucher changes. -/
theorem releaseHistory_frame {γ : Type} (f : Vouching → γ)
    (hf : ∀ x history, f { x with voucherHistory := history } = f x)
    (x : Vouching) (voucher borrower : Address) (vouches : List VouchRecord) :
    f (x.releaseHistory voucher borrower vouches) = f x := by
  unfold releaseHistory
  split
  · rfl
  · exact hf x _

theorem noteHistory_frame {γ : Type} (f : Vouching → γ) (hf : ∀ x history, f { x with voucherHistory := history } = f x)
    (x : Vouching) (voucher borrower : Address) : f (x.noteHistory voucher borrower) = f x := by
  unfold noteHistory
  split
  · rfl
  · exact hf x _

theorem saved_vouchesOf (x : Vouching) (u b token : Address) (vouches : List VouchRecord) :
    (x.saved u b token vouches).vouchesOf = update x.vouchesOf b vouches :=
  setVouches_records x b vouches

theorem queued_vouchesOf (x : Vouching) (b : Address) (entry : QueuedWithdrawal) :
    (x.queued b entry).vouchesOf = x.vouchesOf := rfl

theorem committed_vouchesOf (x : Vouching) (now : Nat) (b : Address) (record : VouchRecord) :
    (x.committed now b record).vouchesOf = update x.vouchesOf b (x.vouchesOf b ++ [record]) :=
  setVouches_records x b _

theorem transferred_vouchesOf (x : Vouching) (src dst b token : Address) :
    (x.transferred src dst b token).vouchesOf = update x.vouchesOf b (setVoucher src dst (x.vouchesOf b)) := by
  rw [← setVouches_records]
  refine vouchesOf_congr ?_
  exact releaseHistory_frame (·.vouches) (fun _ _ => rfl) ..

theorem split_vouchesOf (x : Vouching) (now : Nat) (b new : Address) (amount : Int) (v : VouchRecord) :
    (x.split now b new amount v).vouchesOf =
      update x.vouchesOf b (setStake v.voucher (v.stake - amount) (x.vouchesOf b) ++
        [{ v with voucher := new, stake := amount, vouchTimestamp := now, delegate := none }]) := by
  rw [← setVouches_records]
  refine vouchesOf_congr ?_
  exact noteHistory_frame (·.vouches) (fun _ _ => rfl) ..

theorem moved_vouchesOf (x : Vouching) (now : Nat) (old new : Address) (v : VouchRecord) :
    (x.moved now old new v).vouchesOf =
      update (update x.vouchesOf old (removeVouch v.voucher (x.vouchesOf old))) new
        (x.vouchesOf new ++ [{ v with vouchTimestamp := now }]) := by
  rw [← setVouches_records, ← setVouches_records]
  refine vouchesOf_congr ?_
  refine (noteHistory_frame (·.vouches) (fun _ _ => rfl) ..).trans ?_
  exact releaseHistory_frame (·.vouches) (fun _ _ => rfl) ..

end Vouching

/-! ## Records that go -/

/-- Some records of `b` are gone, and nothing else has changed. -/
def Dropped (xs : Records) (b : Address) (ys : Records) : Prop :=
  ∃ rest, rest.Sublist (xs b) ∧ ys = update xs b rest

namespace Dropped

variable {xs ys : Records} {b : Address}

theorem refl (xs : Records) (b : Address) : Dropped xs b xs :=
  ⟨xs b, List.Sublist.refl _, (update_eq_self b xs).symm⟩

theorem of_eq (h : ys = xs) : Dropped xs b ys := h ▸ refl xs b

theorem drop (h : Dropped xs b ys) {rest : List VouchRecord} (hrest : rest.Sublist (ys b)) :
    Dropped xs b (update ys b rest) := by
  obtain ⟨before, hbefore, rfl⟩ := h
  rw [update_self] at hrest
  exact ⟨rest, hrest.trans hbefore, update_idem ..⟩

end Dropped

/-- Of the records `xs`, some behind `b` are gone. -/
def Vouching.Under (xs : Records) (b : Address) (x : Vouching) : Prop := Dropped xs b x.vouchesOf

def Vault.Under (xs : Records) (b : Address) (x : Vault) : Prop := x.vouching.Under xs b

def Store.Under (xs : Records) (b : Address) (s : Store) : Prop := s.vault.Under xs b

section

variable {xs : Records} {b : Address}

instance : Inside (Store.Under xs b) Vault (Vault.Under xs b) where

theorem Vouching.Under.congr {x y : Vouching} (h : x.Under xs b) (hv : y.vouches = x.vouches) : y.Under xs b := by
  rw [Vouching.Under, Vouching.vouchesOf_congr hv]
  exact h

theorem Vouching.Under.setVouches {x : Vouching} (h : x.Under xs b) {rest : List VouchRecord}
    (hrest : rest.Sublist (x.vouchesOf b)) : (x.setVouches b rest).Under xs b := by
  rw [Vouching.Under, Vouching.setVouches_records]
  exact h.drop hrest

theorem Vouching.Under.removeVouches {x : Vouching} (h : x.Under xs b) : (x.removeVouches b).Under xs b := by
  rw [Vouching.Under, Vouching.removeVouches_records]
  exact h.drop (List.nil_sublist _)

end

instance (xs : Records) (b : Address) {α : Type} (x : Contract Vault α) [hx : Keeps Vault.entries x] :
    Stable (Vault.Under xs b) x :=
  ⟨fun ctx y h => (hx.out ctx y).mono fun _ _ hv => Vouching.Under.congr h hv⟩

instance (xs : Records) (b : Address) {α : Type} (x : Contract Store α) [hx : Keeps Store.entries x] :
    Stable (Store.Under xs b) x :=
  ⟨fun ctx y h => (hx.out ctx y).mono fun _ _ hv => Vouching.Under.congr h hv⟩

section Calls

variable {ctx : Context} {s : Store} {xs : Records}

/-! ### Queue and payouts -/

theorem processEntry_spec (queued : QueuedWithdrawal) (vouches : List VouchRecord) (bank : Ledger) :
    Yields (processEntry queued vouches) ctx bank fun rest _ => rest = removeVouch queued.voucher vouches := by
  unfold processEntry
  split
  case h_1 hnone =>
    rw [yields_pure, removeVouch_of_none hnone]
  case h_2 v hv =>
    simp only [yields_steps, yields_ite, yields_pay]
    exact ⟨fun _ _ _ => trivial, fun _ => trivial⟩

theorem processEntries_sublist (queue : List QueuedWithdrawal) (vouches : List VouchRecord) (bank : Ledger) :
    Yields (processEntries vouches queue) ctx bank fun rest _ => rest.Sublist vouches := by
  induction queue generalizing vouches bank with
  | nil => simp [processEntries]
  | cons queued queue ih =>
    simp only [processEntries, yields_bind]
    refine (processEntry_spec queued vouches bank).mono fun rest bank' hrest => ?_
    refine (ih rest bank').mono fun rest' _ hrest' => ?_
    exact hrest'.trans (hrest ▸ removeVouch_sublist queued.voucher vouches)

instance (borrower : Address) : Stable (Vault.Under xs borrower) (processWithdrawalQueue borrower) where
  out ctx x hx := by
    simp only [processWithdrawalQueue, yields_bind, yields_look, yields_ite, yields_pure]
    refine ⟨fun _ => hx, fun _ => ?_⟩
    refine (yields_sumI128 _ _ _ _ _).mono ?_
    rintro fees _ ⟨-, rfl⟩
    simp only [lift_eq_zoom, lift_self]
    refine (yields_zoom _ _ _ _).2 ((processEntries_sublist _ _ _).mono fun rest bank hrest => ?_)
    refine yields_zoom_any fun _ bank' => ?_
    rw [yields_alter]
    exact (Vouching.Under.setVouches hx hrest).congr rfl

/-! ### Calls that only drop records -/

instance (voucher : Address) (earned : Int) : Keeps Vouching.vouches (addYieldEarned voucher earned) where
  out ctx x := by
    simp only [addYieldEarned, yields_steps, yields_i128]
    exact fun _ => rfl

instance (voucher : Address) (amount : Int) : Keeps Vouching.vouches (addSlashed voucher amount) where
  out ctx x := by
    simp only [addSlashed, yields_steps, yields_i128]
    exact fun _ => rfl

instance (token : Address) (dist : List YieldDistributionEntry) (penalty total : Int) (vouches : List VouchRecord) :
    Keeps Vault.entries (payoutVouchers token dist penalty total vouches) := by
  induction vouches with
  | nil => unfold payoutVouchers; infer_instance
  | cons v vs ih => unfold payoutVouchers payoutVoucher; dsimp only; infer_instance

instance (bps : Int) (v : VouchRecord) : Keeps Vault.entries (seizeStake bps v) := by
  unfold seizeStake; dsimp only; infer_instance

instance (loanToken : Address) (bps total : Int) (remaining vouches : List VouchRecord) :
    Keeps Vault.entries (seizeStakes loanToken bps total remaining vouches) := by
  induction vouches generalizing total remaining with
  | nil => unfold seizeStakes; infer_instance
  | cons v vs ih => unfold seizeStakes; dsimp only; infer_instance

instance (borrower : Address) : Stable (Vault.Under xs borrower) (alter fun x : Vault =>
    { x with vouching := x.vouching.removeVouches borrower } : Contract Vault Unit) where
  out ctx x hx := by
    rw [yields_alter]
    exact Vouching.Under.removeVouches hx

instance (loan : LoanRecord) (borrower : Address) (dist : List YieldDistributionEntry) (penalty : Int) :
    Stable (Vault.Under xs borrower) (settleVouches loan borrower dist penalty) := by
  unfold settleVouches; infer_instance

instance (borrower : Address) : Stable (Vault.Under xs borrower) (slashAll borrower) := by
  unfold slashAll; infer_instance

instance (borrower : Address) : Stable (Vault.Under xs borrower) (returnAll borrower) := by
  unfold returnAll; infer_instance

/-- The list that stays after a slash: what was to stay before, and some of the rest. -/
theorem seizeStakes_sublist (loanToken : Address) (bps total : Int) (remaining vouches : List VouchRecord) (x : Vault) :
    Yields (seizeStakes loanToken bps total remaining vouches) ctx x fun r _ =>
      r.2.Sublist (remaining ++ vouches) := by
  induction vouches generalizing total remaining x with
  | nil => simp [seizeStakes]
  | cons v vs ih =>
    have hkeep (x : Vault) :
        Yields (seizeStakes loanToken bps total (remaining ++ [v]) vs) ctx x fun r _ =>
          r.2.Sublist (remaining ++ v :: vs) := by
      refine (ih total (remaining ++ [v]) x).mono fun r _ h => ?_
      rwa [List.append_assoc, List.singleton_append] at h
    simp only [seizeStakes, yields_ite, yields_bind, yields_ask, yields_i128, lift_eq_zoom, lift_self]
    refine ⟨fun _ => ⟨fun _ => yields_zoom_any fun _ bank => hkeep _, fun _ => hkeep x⟩, fun _ => ?_⟩
    refine (yields_true _ _ _).mono fun share x' _ _ => ?_
    refine (ih _ remaining x').mono fun r _ h => ?_
    exact h.trans ((List.sublist_cons_self v vs).append_left remaining)

instance (borrower loanToken : Address) (bps : Int) :
    Stable (Vault.Under xs borrower) (slashVouches borrower loanToken bps) where
  out ctx x hx := by
    simp only [slashVouches, yields_bind, yields_look]
    intro r x' hr
    have hsub := seizeStakes_sublist loanToken bps 0 [] _ x r x' hr
    have hkeep : x'.entries = x.entries := Keeps.out (f := Vault.entries) ctx x r x' hr
    have hx' : x'.vouching.Under xs borrower := Vouching.Under.congr hx hkeep
    simp only [yields_alter, yields_pure]
    split
    · exact hx'.removeVouches
    · refine hx'.setVouches ?_
      rw [Vouching.vouchesOf_congr hkeep]
      exact hsub

instance {α : Type} (x : Contract Store α) [hx : Keeps Store.stakes x] : Keeps Store.entries x :=
  ⟨fun ctx s => (hx.out ctx s).mono fun _ _ ht => congrArg Prod.fst ht⟩

instance (borrower : Address) (amount threshold : Int) (purpose : String) (token : Address) :
    Keeps Store.stakes (requestLoan borrower amount threshold purpose token) :=
  ⟨fun _ _ => (requestLoan_cap borrower amount threshold purpose token).mono fun _ _ h => h.1⟩

instance (signers borrowers : List Address) (amounts : List Int) :
    Keeps Store.stakes (createLoanPool signers borrowers amounts) :=
  ⟨fun _ _ => (createLoanPool_cap signers borrowers amounts).mono fun _ _ h => h.1⟩

instance (borrower : Address) : Keeps Store.entries (applySlashRecovery borrower) where
  out ctx s := by
    simp only [applySlashRecovery, yields_steps]
    split
    · exact (yields_pure _ _ _ _).2 rfl
    · exact Keeps.out (f := Store.entries) ctx s

section

set_option synthInstance.maxSize 200000

instance (loan : LoanRecord) (borrower : Address) (penalty : Int) :
    Stable (Store.Under xs borrower) (closeLoan loan borrower penalty) := by
  unfold closeLoan; infer_instance

instance (borrower : Address) (paid : Payment) (wasDefaulted : Bool) :
    Stable (Store.Under xs borrower) (settlePayment borrower paid wasDefaulted) := by
  unfold settlePayment; dsimp only; infer_instance

instance (borrower : Address) (payment : Int) : Stable (Store.Under xs borrower) (repay borrower payment) := by
  unfold repay repayLoan; infer_instance

instance (borrower : Address) (payment : Int) (token : Address) :
    Keeps Store.entries (repayPartial borrower payment token) := by
  unfold repayPartial; infer_instance

instance (signers : List Address) (borrower : Address) : Stable (Store.Under xs borrower) (slash signers borrower) := by
  unfold slash; infer_instance

instance (borrower : Address) : Stable (Store.Under xs borrower) (autoSlash borrower) := by
  unfold autoSlash; infer_instance

instance (borrower : Address) : Stable (Store.Under xs borrower) (claimExpiredLoan borrower) := by
  unfold claimExpiredLoan; infer_instance

instance (borrower : Address) : Stable (Store.Under xs borrower) (executeSlash borrower) := by
  unfold executeSlash; dsimp only; infer_instance

instance (borrower : Address) : Stable (Store.Under xs borrower) (executeSlashVote borrower) := by
  unfold executeSlashVote; infer_instance

instance (borrower : Address) : Stable (Store.Under xs borrower) (executePendingSlash borrower) := by
  unfold executePendingSlash; infer_instance

instance (signers : List Address) (slashId : Nat) (reason : String) :
    Keeps Store.entries (reverseSlash signers slashId reason) := by
  unfold reverseSlash; infer_instance

instance (signers : List Address) (recipient : Address) : Keeps Store.entries (slashTreasury signers recipient) := by
  unfold slashTreasury; infer_instance

instance (signers : List Address) (recipient : Address) (amount : Int) :
    Keeps Store.entries (withdrawSlashTreasury signers recipient amount) := by
  unfold withdrawSlashTreasury; infer_instance

instance (borrower : Address) : Keeps Store.entries (appealSlash borrower) := by
  unfold appealSlash; infer_instance

instance (borrower : Address) : Keeps Store.entries (finalizeAppealInternal borrower) := by
  unfold finalizeAppealInternal; infer_instance

instance (borrower : Address) : Keeps Store.entries (finalizeAppeal borrower) := by
  unfold finalizeAppeal; infer_instance

instance (voter borrower : Address) (approve : Bool) : Keeps Store.entries (voteAppeal voter borrower approve) := by
  unfold voteAppeal; infer_instance

end

end Calls

/-! ## Records that are added -/

/-- Records added one after the other, each with what it has passed. -/
inductive Added (w : World) (k : LoanBook) : Records → Records → Prop
  | nil {xs} : Added w k xs xs
  | cons {xs b record ys} : Admits w k xs b record → Added w k (update xs b (xs b ++ [record])) ys → Added w k xs ys

theorem Committed.added {w : World} {k : LoanBook} {x y : Vault} (h : Committed w k x y) :
    Added w k x.records y.records := by
  induction h with
  | nil => exact .nil
  | @cons x b record y ha _ _ ih =>
    refine .cons ha ?_
    rwa [Vault.records, Vouching.committed_vouchesOf] at ih

/-! ## Every call -/

/-- The operations that hand a record, or part of one, to somebody else. -/
def Op.handsOn : Op → Bool
  | .transferVouch .. | .splitVouch .. | .rotateToNewBorrower .. => true
  | _ => false

/-- What a call does to the vouch records when it goes through from `s` to `t`. -/
inductive VouchEffect (w : World) (s t : Store) : Op → Prop
  | dropped {op} (b) : op.handsOn = false → Dropped s.records b t.records → VouchEffect w s t op
  | restaked {op} (b) {voucher v stake} : op.handsOn = false →
      findVouch voucher (s.records b) = some v → (0 < v.stake → 0 < stake) →
      t.records = update s.records b (setStake voucher stake (s.records b)) → VouchEffect w s t op
  | added {op} : op.handsOn = false → Added w t.book s.records t.records → VouchEffect w s t op
  | transferred {src dst b v} :
      findVouch src (s.records b) = some v →
      (∀ u ∈ s.records b, ¬ (u.voucher = dst ∧ u.token = v.token)) → t.book.hasActiveLoan b = false →
      t.records = update s.records b (setVoucher src dst (s.records b)) → VouchEffect w s t (.transferVouch src dst b)
  | split {voucher b newVoucher amount v record} :
      findVouch voucher (s.records b) = some v → 0 < amount → amount < v.stake → record.voucher = newVoucher →
      record.token = v.token → record.stake = amount →
      (∀ u ∈ s.records b, ¬ (u.voucher = newVoucher ∧ u.token = v.token)) → t.book.hasActiveLoan b = false →
      t.records = update s.records b (setStake voucher (v.stake - amount) (s.records b) ++ [record]) →
      VouchEffect w s t (.splitVouch voucher b newVoucher amount)
  | rotated {voucher old new v record} :
      findVouch voucher (s.records old) = some v → old ≠ new → record.voucher = voucher → record.token = v.token →
      record.stake = v.stake → (∀ u ∈ s.records new, ¬ (u.voucher = voucher ∧ u.token = v.token)) →
      t.book = s.book →
      t.records = update (update s.records old (removeVouch voucher (s.records old))) new (s.records new ++ [record]) →
      VouchEffect w s t (.rotateToNewBorrower voucher old new)

/-- Half of a positive stake is less than it. -/
theorem withdrawable_lt {stake : Int} (h : 0 < stake) : withdrawable stake < stake := by
  have hpos : 0 ≤ stake * partialWithdrawalMaxBps := Int.mul_nonneg h.le (by decide)
  rw [withdrawable, Int.tdiv_eq_ediv_of_nonneg hpos]
  simp only [partialWithdrawalMaxBps, bpsDenominator]
  omega

/-- What is left of a record when part of its stake is taken. -/
theorem reduceStake_effect {w : World} {s t : Store} {op : Op} {b : Address} {v : VouchRecord} {amount : Int}
    (hop : op.handsOn = false) (hfind : findVouch voucher (s.records b) = some v) (hle : amount ≤ v.stake)
    (ht : t.records = update s.records b (reduceStake v amount (s.records b))) : VouchEffect w s t op := by
  obtain ⟨-, rfl⟩ := findVouch_some hfind
  unfold reduceStake at ht
  split at ht
  · exact .dropped b hop ⟨_, removeVouch_sublist _ _, ht⟩
  · exact .restaked b hop hfind (fun _ => by omega) ht

/-- The vouching calls, by what they do to the records. -/
theorem Staked.effect {w : World} {s t : Store} {op : Op} (h : Staked w t.book s.vault t.vault op)
    (hbook : ∀ u old new, op = .rotateToNewBorrower u old new → t.book = s.book) : VouchEffect w s t op := by
  have hrecords : t.records = t.vault.vouching.vouchesOf := rfl
  have hbefore : s.vault.vouching.vouchesOf = s.records := rfl
  cases h with
  | vouched hcommitted => exact .added rfl hcommitted.added
  | batched hcommitted => exact .added rfl hcommitted.added
  | increased hfind _ hpos _ hy =>
    rw [hy, Vouching.saved_vouchesOf] at hrecords
    exact .restaked _ rfl hfind (fun _ => by omega) hrecords
  | decreased hfind _ _ hle _ hy =>
    rw [hy, Vouching.saved_vouchesOf] at hrecords
    exact reduceStake_effect rfl hfind hle hrecords
  | decreasedLater hfind _ hle _ hy =>
    rw [hy, Vouching.queued_vouchesOf, Vouching.saved_vouchesOf] at hrecords
    exact reduceStake_effect rfl hfind hle hrecords
  | withdrawn _ _ _ hy =>
    rw [hy, Vouching.saved_vouchesOf] at hrecords
    exact .dropped _ rfl ⟨_, removeVouch_sublist _ _, hrecords⟩
  | withdrawnLater _ _ hy =>
    rw [hy, Vouching.queued_vouchesOf, Vouching.saved_vouchesOf] at hrecords
    exact .dropped _ rfl ⟨_, removeVouch_sublist _ _, hrecords⟩
  | requested _ _ _ hy =>
    rw [hy, Vouching.setVouches_records] at hrecords
    exact .dropped _ rfl ⟨_, removeVouch_sublist _ _, hrecords⟩
  | @requestedLater _ b _ _ _ _ _ _ hy =>
    rw [hy, Vouching.queued_vouchesOf] at hrecords
    exact .dropped b rfl (.of_eq hrecords)
  | halved hfind _ _ _ hy =>
    rw [hy, Vouching.setVouches_records] at hrecords
    exact .restaked _ rfl hfind (fun hpos => Int.sub_pos.2 (withdrawable_lt hpos)) hrecords
  | @halvedLater _ b _ _ _ hy =>
    rw [hy, Vouching.queued_vouchesOf] at hrecords
    exact .dropped b rfl (.of_eq hrecords)
  | transferred _ hfind hunique hidle hy =>
    rw [hy, Vouching.transferred_vouchesOf] at hrecords
    exact .transferred hfind hunique hidle hrecords
  | @split u _ _ _ v hfind _ hpos hlt hunique hidle hy =>
    rw [hy, Vouching.split_vouchesOf, (findVouch_some hfind).2] at hrecords
    refine .split hfind hpos hlt ?_ ?_ ?_ hunique hidle hrecords
    all_goals rfl
  | rotated hne hfind _ hunique hy =>
    obtain ⟨-, rfl⟩ := findVouch_some hfind
    rw [hy, Vouching.moved_vouchesOf] at hrecords
    refine .rotated hfind hne ?_ ?_ ?_ hunique (hbook _ _ _ rfl) hrecords
    all_goals rfl

section Calls

variable {ctx : Context} {s : Store}

theorem staked_effect {op : Op} (hop : op.stakes = true) :
    Yields (dispatch op) ctx s fun _ t => VouchEffect ctx.toWorld s t op := by
  have hbook : Yields (dispatch op) ctx s fun _ t =>
      ∀ u old new, op = .rotateToNewBorrower u old new → t.book = s.book := by
    intro r t ht u old new hrotate
    subst hrotate
    exact Keeps.out (f := Store.book) (x := rotateToNewBorrower u old new) ctx s r t ht
  exact ((dispatch_staked hop).and hbook).mono fun _ _ h => h.1.effect h.2

/-! ### All of them -/

theorem dispatch_keeps_entries {op : Op} (hop : op.stakes = false) (hnone : op.resolves = none) :
    Keeps Store.entries (dispatch op) := by
  cases op
  case vouch | batchVouch | increaseStake | decreaseStake | withdrawVouch | requestWithdrawal | partialWithdraw
      | transferVouch | splitVouch | rotateToNewBorrower => cases hop
  case repay | slash | autoSlash | claimExpiredLoan | executeSlashVote | executePendingSlash => cases hnone
  all_goals
    dsimp only [dispatch]
    infer_instance

theorem dispatch_under {op : Op} {b : Address} (hop : op.resolves = some b) (xs : Records) :
    Stable (Store.Under xs b) (dispatch op) := by
  cases op
  case repay | slash | autoSlash | claimExpiredLoan | executeSlashVote | executePendingSlash =>
    cases hop
    dsimp only [dispatch]
    infer_instance
  all_goals cases hop

/-- The other calls change no record, or let some of one borrower's go. -/
theorem dispatch_dropped {op : Op} (hop : op.stakes = false) :
    Yields (dispatch op) ctx s fun _ t => ∃ b, (op.resolves = none ∨ op.resolves = some b) ∧
      Dropped s.records b t.records := by
  cases hnone : op.resolves with
  | none =>
    refine ((dispatch_keeps_entries hop hnone).out ctx s).mono fun _ t h => ?_
    exact ⟨0, .inl rfl, .of_eq (Vouching.vouchesOf_congr h)⟩
  | some b =>
    refine ((dispatch_under hnone s.records).out ctx s (Dropped.refl _ _)).mono fun _ t h => ?_
    exact ⟨b, .inr rfl, h⟩

theorem dispatch_vouchEffect (op : Op) : Yields (dispatch op) ctx s fun _ t => VouchEffect ctx.toWorld s t op := by
  by_cases hop : op.stakes = true
  · exact staked_effect hop
  · have hkept : op.handsOn = false := by
      cases op
      case transferVouch | splitVouch | rotateToNewBorrower => exact absurd rfl hop
      all_goals rfl
    refine (dispatch_dropped (Bool.eq_false_of_not_eq_true hop)).mono ?_
    rintro - t ⟨b, -, hdropped⟩
    exact .dropped b hkept hdropped

end Calls

/-- What a call that is no vouching call does to the vouch records. -/
theorem dropped_of {s : State} {c : Call} {t : Store} (h : exec c s = .ok t) (hop : c.op.stakes = false) :
    ∃ b, (c.op.resolves = none ∨ c.op.resolves = some b) ∧ Dropped s.store.records b t.records :=
  yields_exec (dispatch_dropped hop) h

theorem records_kept {s : State} {c : Call} {t : Store} (h : exec c s = .ok t) (hop : c.op.stakes = false)
    (hnone : c.op.resolves = none) : t.records = s.store.records :=
  yields_exec (((dispatch_keeps_entries hop hnone).out _ _).mono fun _ _ ht => Vouching.vouchesOf_congr ht) h

/-- What a call that goes through does to the vouch records. -/
theorem vouchEffect_of {s : State} {c : Call} {t : Store} (h : exec c s = .ok t) :
    VouchEffect s.world s.store t c.op :=
  yields_exec (dispatch_vouchEffect c.op) h

end QuorumCredit
