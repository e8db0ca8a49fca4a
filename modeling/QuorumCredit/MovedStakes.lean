import QuorumCredit.Indexes
import QuorumCredit.Host.Sums
/-!
# Moved stakes

Handing a record on, or part of one, takes it out of one list and puts it into
another, which may be the same. The stakes recorded in a token add up to the
same afterwards, and the reverse index still leads from each voucher to every
borrower behind whom it has a record.
-/

open Host Function

namespace QuorumCredit

/-! ## Stakes in one token -/

section

variable (token : Address) {u : Address} {vouches : List VouchRecord} {v : VouchRecord}

/-- What a record counts in the token. -/
def VouchRecord.stakeIn (r : VouchRecord) : Int := if r.token = token then r.stake else 0

theorem plainStake_nil : plainStake token [] = 0 := rfl

theorem plainStake_cons (r : VouchRecord) (rs : List VouchRecord) :
    plainStake token (r :: rs) = r.stakeIn token + plainStake token rs := by
  unfold plainStake inToken stakeSum VouchRecord.stakeIn
  by_cases hr : r.token = token
  · simp [hr]
  · simp [hr]

theorem plainStake_append (rs us : List VouchRecord) :
    plainStake token (rs ++ us) = plainStake token rs + plainStake token us := by
  simp [plainStake, inToken, stakeSum]

theorem plainStake_singleton (r : VouchRecord) : plainStake token [r] = r.stakeIn token := by
  rw [plainStake_cons, plainStake_nil, add_zero]

theorem plainStake_nonneg (h : ∀ v ∈ vouches, 0 ≤ v.stake) :
    0 ≤ plainStake token vouches := by
  refine List.sum_nonneg fun n hn => ?_
  obtain ⟨v, hv, rfl⟩ := List.mem_map.1 hn
  exact h v (List.mem_filter.1 hv).1

theorem plainStake_removeVouch (hfind : findVouch u vouches = some v) :
    plainStake token (removeVouch u vouches) + v.stakeIn token = plainStake token vouches := by
  induction vouches with
  | nil => cases hfind
  | cons r rs ih =>
    rw [findVouch, List.find?_cons] at hfind
    rw [removeVouch, plainStake_cons]
    by_cases hr : r.voucher = u
    · simp only [hr, decide_true] at hfind
      cases hfind
      rw [if_pos hr, add_comm]
    · simp only [hr, decide_false] at hfind
      rw [if_neg hr, plainStake_cons, add_assoc, ih hfind]

/-- A new stake on the voucher's first record counts in its place. -/
theorem plainStake_setStake (hfind : findVouch u vouches = some v) (stake : Int) :
    plainStake token (setStake u stake vouches) + v.stakeIn token =
      plainStake token vouches + { v with stake }.stakeIn token := by
  induction vouches with
  | nil => cases hfind
  | cons r rs ih =>
    rw [findVouch, List.find?_cons] at hfind
    rw [setStake, plainStake_cons]
    by_cases hr : r.voucher = u
    · simp only [hr, decide_true] at hfind
      cases hfind
      rw [if_pos hr, plainStake_cons]
      omega
    · simp only [hr, decide_false] at hfind
      rw [if_neg hr, plainStake_cons, add_assoc, ih hfind, add_assoc]

/-- Only the names change. -/
theorem plainStake_setVoucher (src dst : Address) (vouches : List VouchRecord) :
    plainStake token (setVoucher src dst vouches) = plainStake token vouches := by
  induction vouches with
  | nil => rfl
  | cons r rs ih =>
    rw [setVoucher]
    split
    · rw [plainStake_cons, plainStake_cons]
      rfl
    · rw [plainStake_cons, plainStake_cons, ih]

end

/-! ## Stakes behind all borrowers -/

/-- Finitely many borrowers have a record. -/
def Sparse (xs : Records) : Prop := {b | xs b ≠ []}.Finite

/-- The stakes recorded in the token behind all borrowers. -/
noncomputable def totalStaked (token : Address) (xs : Records) : Int := ∑ᶠ b, plainStake token (xs b)

namespace Sparse

variable {xs : Records}

theorem support (h : Sparse xs) (token : Address) : (Function.support fun b => plainStake token (xs b)).Finite := by
  refine h.subset fun b hb hnil => hb ?_
  simp only [hnil, plainStake_nil]

theorem update (h : Sparse xs) (b : Address) (vouches : List VouchRecord) : Sparse (Function.update xs b vouches) := by
  refine (h.insert b).subset fun a ha => ?_
  by_cases hab : a = b
  · exact .inl hab
  · rw [Set.mem_ofPred_eq, update_of_ne hab] at ha
    exact .inr ha

theorem added {w : World} {k : LoanBook} {ys : Records} (h : Sparse xs) (ha : Added w k xs ys) : Sparse ys := by
  induction ha with
  | nil => exact h
  | cons _ _ ih => exact ih (h.update _ _)

theorem effect {w : World} {s t : Store} {op : Op} (h : Sparse s.records) (he : VouchEffect w s t op) :
    Sparse t.records := by
  cases he with
  | dropped b _ hdrop =>
    obtain ⟨rest, -, hrecords⟩ := hdrop
    exact hrecords ▸ h.update b rest
  | restaked b _ _ _ hrecords => exact hrecords ▸ h.update b _
  | added _ hadded => exact h.added hadded
  | transferred _ _ _ hrecords => exact hrecords ▸ h.update _ _
  | split _ _ _ _ _ _ _ _ hrecords => exact hrecords ▸ h.update _ _
  | rotated _ _ _ _ _ _ _ hrecords => exact hrecords ▸ (h.update _ _).update _ _

end Sparse

/-- Writing one borrower's list changes the total by the new list less the old one. -/
theorem totalStaked_update {xs : Records} (h : Sparse xs) (token b : Address) (vouches : List VouchRecord) :
    totalStaked token (update xs b vouches) = totalStaked token xs + plainStake token vouches -
      plainStake token (xs b) :=
  finsum_update_entry (h.support token) b vouches

theorem Reachable.sparse {s : State} (hr : Reachable s) : Sparse s.store.records := by
  obtain ⟨h, hr⟩ := hr
  refine History.inv (p := fun _ _ => True) (I := fun _ s => Sparse s.store.records) (fun _ _ => ?_)
    (fun _ hs hd _ => ?_) (fun hs _ => hs) (fun hs _ _ => hs) hr (along_true h)
  · refine Set.finite_empty.subset fun b hb => ?_
    exact hb rfl
  · exact hs.effect (vouchEffect_of hd)

/-- Handing records on keeps the stakes of every token. -/
theorem VouchEffect.totalStaked {w : World} {s t : Store} {op : Op} (hs : Sparse s.records) (he : VouchEffect w s t op)
    (hop : op.handsOn = true) (token : Address) : totalStaked token t.records = totalStaked token s.records := by
  cases he with
  | dropped _ hno | restaked _ hno | added hno =>
    rw [hno] at hop
    cases hop
  | @transferred src dst b v hfind _ _ hrecords =>
    rw [hrecords, totalStaked_update hs, plainStake_setVoucher]
    omega
  | @split voucher b newVoucher amount v record hfind _ _ _ htoken hstake _ _ hrecords =>
    have hparts := plainStake_setStake token hfind (v.stake - amount)
    rw [hrecords, totalStaked_update hs, plainStake_append, plainStake_singleton]
    simp only [VouchRecord.stakeIn, htoken, hstake] at hparts ⊢
    by_cases htoken : v.token = token
    · simp only [htoken, if_true] at hparts ⊢
      omega
    · simp only [htoken, if_false] at hparts ⊢
      omega
  | @rotated voucher old new v record hfind hne _ htoken hstake _ _ hrecords =>
    have htaken := plainStake_removeVouch token hfind
    rw [hrecords, totalStaked_update (hs.update _ _), totalStaked_update hs, plainStake_append, plainStake_singleton,
      update_of_ne hne.symm]
    have hsame : record.stakeIn token = v.stakeIn token := by rw [VouchRecord.stakeIn, htoken, hstake,
      VouchRecord.stakeIn]
    omega

/-! ## The reverse index -/

theorem voucher_of_mem_setStake {u : Address} {stake : Int} {vouches : List VouchRecord} {r : VouchRecord}
    (h : r ∈ setStake u stake vouches) : ∃ r' ∈ vouches, r'.voucher = r.voucher := by
  induction vouches with
  | nil => cases h
  | cons v vs ih =>
    rw [setStake] at h
    split at h
    · rcases List.mem_cons.1 h with rfl | h
      · exact ⟨v, List.mem_cons_self, rfl⟩
      · exact ⟨r, List.mem_cons_of_mem v h, rfl⟩
    · rcases List.mem_cons.1 h with rfl | h
      · exact ⟨r, List.mem_cons_self, rfl⟩
      · obtain ⟨r', hr', hname⟩ := ih h
        exact ⟨r', List.mem_cons_of_mem v hr', hname⟩

theorem voucher_of_mem_setVoucher {src dst : Address} {vouches : List VouchRecord} {r : VouchRecord}
    (h : r ∈ setVoucher src dst vouches) : r.voucher = dst ∨ r ∈ vouches := by
  induction vouches with
  | nil => cases h
  | cons v vs ih =>
    rw [setVoucher] at h
    split at h
    · rcases List.mem_cons.1 h with rfl | h
      · exact .inl rfl
      · exact .inr (List.mem_cons_of_mem v h)
    · rcases List.mem_cons.1 h with rfl | h
      · exact .inr List.mem_cons_self
      · exact (ih h).imp_right (List.mem_cons_of_mem v)

theorem voucher_of_mem_reduceStake {v r : VouchRecord} {amount : Int} {vouches : List VouchRecord}
    (h : r ∈ reduceStake v amount vouches) : ∃ r' ∈ vouches, r'.voucher = r.voucher := by
  rw [reduceStake] at h
  split at h
  · exact ⟨r, mem_removeVouch h, rfl⟩
  · exact voucher_of_mem_setStake h

namespace Vouching

variable {x y : Vouching} {a b u v : Address} {vouches : List VouchRecord}

theorem mem_pushHistory : a ∈ (x.pushHistory u b).voucherHistory v ↔ a ∈ x.voucherHistory v ∨ v = u ∧ a = b := by
  simp only [pushHistory, update_apply]
  split
  case isTrue hv => simp [hv]
  case isFalse hv => simp [hv]

theorem mem_noteHistory : a ∈ (x.noteHistory u b).voucherHistory v ↔ a ∈ x.voucherHistory v ∨ v = u ∧ a = b := by
  unfold noteHistory
  split
  case isTrue hb =>
    refine ⟨.inl, fun h => ?_⟩
    rcases h with h | ⟨rfl, rfl⟩
    · exact h
    · exact hb
  case isFalse => exact mem_pushHistory

/-- An entry is released with the voucher's last record, and no other one is. -/
theorem mem_releaseHistory (h : a ∈ x.voucherHistory v) (hkept : v = u → a = b → ∃ r ∈ vouches, r.voucher = u) :
    a ∈ (x.releaseHistory u b vouches).voucherHistory v := by
  unfold releaseHistory
  split
  case isTrue => exact h
  case isFalse hnone =>
    have hgone : ¬ ∃ r ∈ vouches, r.voucher = u := by simpa using hnone
    simp only [dropHistory, update_apply]
    split
    case isTrue hv =>
      have hother : a ≠ b := fun hab => hgone (hkept hv hab)
      rw [List.mem_erase_of_ne hother, ← hv]
      exact h
    case isFalse => exact h

/-- Each record is listed in its voucher's history. -/
def Indexed (x : Vouching) : Prop := ∀ b, ∀ r ∈ x.vouchesOf b, b ∈ x.voucherHistory r.voucher

namespace Indexed

/-- No new names among the records of any borrower, and no history is shorter. -/
theorem mono (hx : x.Indexed) (hnames : ∀ b, ∀ r ∈ y.vouchesOf b, ∃ r' ∈ x.vouchesOf b, r'.voucher = r.voucher)
    (hhistory : y.voucherHistory = x.voucherHistory) : y.Indexed := by
  intro b r hr
  obtain ⟨r', hr', hname⟩ := hnames b r hr
  rw [hhistory, ← hname]
  exact hx b r' hr'

/-- One borrower's records are replaced, by records of the same vouchers. -/
theorem rewrite (hx : x.Indexed) (hrecords : y.vouchesOf = update x.vouchesOf b vouches)
    (hnames : ∀ r ∈ vouches, ∃ r' ∈ x.vouchesOf b, r'.voucher = r.voucher)
    (hhistory : y.voucherHistory = x.voucherHistory) : y.Indexed := by
  refine hx.mono (fun a r hr => ?_) hhistory
  rw [hrecords, update_apply] at hr
  split at hr
  case isTrue hab => exact hab ▸ hnames r hr
  case isFalse => exact ⟨r, hr, rfl⟩

theorem queued (hx : x.Indexed) (b : Address) (entry : QueuedWithdrawal) : (x.queued b entry).Indexed := hx

theorem committed (hx : x.Indexed) (now : Nat) (b : Address) (record : VouchRecord) :
    (x.committed now b record).Indexed := by
  intro a r hr
  have hhistory : (x.committed now b record).voucherHistory = (x.pushHistory record.voucher b).voucherHistory := rfl
  rw [hhistory, mem_pushHistory]
  rw [committed_vouchesOf, update_apply] at hr
  split at hr
  case isTrue hab =>
    subst hab
    rcases List.mem_append.1 hr with hr | hr
    · exact .inl (hx a r hr)
    · exact .inr ⟨congrArg VouchRecord.voucher (List.mem_singleton.1 hr), rfl⟩
  case isFalse => exact .inl (hx a r hr)

theorem transferred (hx : x.Indexed) (src dst b token : Address) : (x.transferred src dst b token).Indexed := by
  intro a r hr
  rw [transferred_vouchesOf, update_apply] at hr
  refine mem_pushHistory.2 ?_
  split at hr
  case isTrue hab =>
    subst hab
    rcases voucher_of_mem_setVoucher hr with hname | hold
    · exact .inr ⟨hname, rfl⟩
    · exact .inl (mem_releaseHistory (hx a r hold) fun hsrc _ => ⟨r, hr, hsrc⟩)
  case isFalse hab => exact .inl (mem_releaseHistory (hx a r hr) fun _ h => absurd h hab)

theorem split (hx : x.Indexed) (now : Nat) (b new : Address) (amount : Int) (v : VouchRecord) :
    (x.split now b new amount v).Indexed := by
  intro a r hr
  rw [split_vouchesOf, update_apply] at hr
  refine mem_noteHistory.2 ?_
  split at hr
  case isTrue hab =>
    subst hab
    rcases List.mem_append.1 hr with hr | hr
    · obtain ⟨r', hr', hname⟩ := voucher_of_mem_setStake hr
      exact .inl (hname ▸ hx a r' hr')
    · exact .inr ⟨congrArg VouchRecord.voucher (List.mem_singleton.1 hr), rfl⟩
  case isFalse => exact .inl (hx a r hr)

theorem moved (hx : x.Indexed) (now : Nat) {old new : Address} (hne : old ≠ new) (v : VouchRecord) :
    (x.moved now old new v).Indexed := by
  intro a r hr
  rw [moved_vouchesOf, update_apply] at hr
  refine mem_noteHistory.2 ?_
  split at hr
  case isTrue hab =>
    subst hab
    rcases List.mem_append.1 hr with hr | hr
    · exact .inl (mem_releaseHistory (hx a r hr) fun _ h => absurd h.symm hne)
    · obtain rfl := List.mem_singleton.1 hr
      exact .inr ⟨rfl, rfl⟩
  case isFalse =>
    rw [update_apply] at hr
    split at hr
    case isTrue hab =>
      subst hab
      exact .inl (mem_releaseHistory (hx a r (mem_removeVouch hr)) fun hname _ => ⟨r, hr, hname⟩)
    case isFalse hab => exact .inl (mem_releaseHistory (hx a r hr) fun _ h => absurd h hab)

end Indexed

end Vouching

theorem Committed.indexed {w : World} {k : LoanBook} {x y : Vault} (h : Committed w k x y) (hx : x.vouching.Indexed) :
    y.vouching.Indexed := by
  induction h with
  | nil => exact hx
  | cons _ _ _ ih => exact ih (hx.committed _ _ _)

theorem Staked.indexed {w : World} {k : LoanBook} {x y : Vault} {op : Op} (h : Staked w k x y op)
    (hx : x.vouching.Indexed) : y.vouching.Indexed := by
  cases h with
  | vouched h | batched h => exact h.indexed hx
  | increased _ _ _ _ hy =>
    rw [hy]
    exact hx.rewrite (Vouching.saved_vouchesOf ..) (fun _ hr => voucher_of_mem_setStake hr) rfl
  | decreased _ _ _ _ _ hy =>
    rw [hy]
    exact hx.rewrite (Vouching.saved_vouchesOf ..) (fun _ hr => voucher_of_mem_reduceStake hr) rfl
  | decreasedLater _ _ _ _ hy =>
    rw [hy]
    exact (hx.rewrite (Vouching.saved_vouchesOf ..) (fun _ hr => voucher_of_mem_reduceStake hr) rfl).queued _ _
  | withdrawn _ _ _ hy =>
    rw [hy]
    exact hx.rewrite (Vouching.saved_vouchesOf ..) (fun r hr => ⟨r, mem_removeVouch hr, rfl⟩) rfl
  | withdrawnLater _ _ hy =>
    rw [hy]
    exact (hx.rewrite (Vouching.saved_vouchesOf ..) (fun r hr => ⟨r, mem_removeVouch hr, rfl⟩) rfl).queued _ _
  | requested _ _ _ hy =>
    rw [hy]
    exact hx.rewrite (Vouching.setVouches_records ..) (fun r hr => ⟨r, mem_removeVouch hr, rfl⟩) rfl
  | halved _ _ _ _ hy =>
    rw [hy]
    exact hx.rewrite (Vouching.setVouches_records ..) (fun _ hr => voucher_of_mem_setStake hr) rfl
  | requestedLater _ _ _ _ hy | halvedLater _ _ hy =>
    rw [hy]
    exact hx.queued _ _
  | transferred _ _ _ _ hy =>
    rw [hy]
    exact hx.transferred _ _ _ _
  | split _ _ _ _ _ _ hy =>
    rw [hy]
    exact hx.split _ _ _ _ _
  | rotated hne _ _ _ hy =>
    rw [hy]
    exact hx.moved _ hne _

theorem Reachable.indexed {s : State} (hr : Reachable s) : s.store.vault.vouching.Indexed := by
  obtain ⟨h, hr⟩ := hr
  refine History.inv (p := fun _ _ => True) (I := fun _ s => s.store.vault.vouching.Indexed) (fun _ _ => ?_)
    (@fun _ s c t _ hs hd _ => ?_) (fun hs _ => hs) (fun hs _ _ => hs) hr (along_true h)
  · intro b r hr
    cases hr
  · by_cases hop : c.op.stakes = true
    · exact (staked_of hd hop).indexed hs
    · have hstays : c.op.stakes = false := Bool.eq_false_of_not_eq_true hop
      have hindexes : c.op.indexes = false := by
        unfold Op.indexes
        split
        · rfl
        · rfl
        · exact hstays
      have hhistory : t.vault.vouching.voucherHistory = s.store.vault.vouching.voucherHistory :=
        yields_exec ((dispatch_keeps_view (f := Vouching.voucherHistory) hindexes).out _ _) hd
      obtain ⟨b, -, rest, hrest, hrecords⟩ := dropped_of hd hstays
      exact hs.rewrite hrecords (fun r hr => ⟨r, hrest.subset hr, rfl⟩) hhistory

/-! ## The result -/

/-- Handing a record on moves stake and makes or loses none, and each record is
listed in its voucher's history. The total is a sum of finitely many stakes. -/
theorem moves_keep_stakes {s : State} (hr : Reachable s) :
    (Sparse s.store.records ∧ ∀ c t token, c.op.handsOn = true → exec c s = .ok t →
      totalStaked token t.records = totalStaked token s.store.records) ∧
    ∀ b, ∀ r ∈ s.store.records b, b ∈ s.store.vault.vouching.voucherHistory r.voucher := by
  refine ⟨⟨hr.sparse, fun c t token hop hd => ?_⟩, hr.indexed⟩
  exact (vouchEffect_of hd).totalStaked hr.sparse hop token

theorem moves_keep_stakes_rotated :
    let s := start.play [.call [2] (.vouch 2 10 1000000 100 0)]
    let t := s.after ⟨[2], .rotateToNewBorrower 2 10 11⟩
    totalStaked 100 t.store.records = totalStaked 100 s.store.records ∧ t.store.records 10 = [] ∧
      (t.store.records 11).map (·.stake) = [1000000] ∧ 11 ∈ t.store.vault.vouching.voucherHistory 2 := by
  intro s t
  have hs : Reachable s := .script sampleWorld sampleBank _
  have ht : Reachable t := ⟨_, hs.choose_spec.step (Step.after s _)⟩
  have hrotated : exec ⟨[2], .rotateToNewBorrower 2 10 11⟩ s = .ok t.store := exec_after (by decide +kernel)
  have hrecord : ∃ r ∈ t.store.records 11, r.voucher = 2 := by decide +kernel
  obtain ⟨r, hr, hname⟩ := hrecord
  refine ⟨(moves_keep_stakes hs).1.2 _ _ 100 rfl hrotated, by decide +kernel, by decide +kernel, ?_⟩
  rw [← hname]
  exact (moves_keep_stakes ht).2 11 r hr

end QuorumCredit
