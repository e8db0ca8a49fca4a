import QuorumCredit.Records
import Mathlib.Data.List.Nodup
/-!
# The vouch records are well formed

Behind every borrower, no two records have the same voucher and token, and every
stake is positive. Each operation that adds or renames a record checks that the
pair is not taken, a decrease that would leave nothing removes the record, and
everything else only drops records. Later lookups rely on it: they take the first
record that matches.
-/

open Host Function

namespace QuorumCredit

/-! ## Lists of records -/

/-- What tells the records behind a borrower apart. -/
def VouchRecord.key (v : VouchRecord) : Address × Address := (v.voucher, v.token)

/-- Positive stakes, and no pair of voucher and token twice. -/
structure WellFormed (vouches : List VouchRecord) : Prop where
  staked : ∀ v ∈ vouches, 0 < v.stake
  distinct : (vouches.map VouchRecord.key).Nodup

theorem setStake_keys (voucher : Address) (stake : Int) (vouches : List VouchRecord) :
    (setStake voucher stake vouches).map VouchRecord.key = vouches.map VouchRecord.key := by
  induction vouches with
  | nil => rfl
  | cons u us ih =>
    rw [setStake]
    split
    · rfl
    · rw [List.map_cons, List.map_cons, ih]

theorem mem_setVoucher {src dst : Address} {vouches : List VouchRecord} {u : VouchRecord}
    (h : u ∈ setVoucher src dst vouches) :
    u ∈ vouches ∨ ∃ v, findVouch src vouches = some v ∧ u = { v with voucher := dst } := by
  induction vouches with
  | nil => exact .inl h
  | cons w ws ih =>
    rw [setVoucher] at h
    by_cases hw : w.voucher = src
    · rw [if_pos hw] at h
      rcases List.mem_cons.1 h with rfl | h
      · exact .inr ⟨w, List.find?_cons_of_pos (by simpa using hw), rfl⟩
      · exact .inl (List.mem_cons_of_mem w h)
    · rw [if_neg hw] at h
      rcases List.mem_cons.1 h with rfl | h
      · exact .inl List.mem_cons_self
      · refine (ih h).imp (List.mem_cons_of_mem w) ?_
        rintro ⟨v, hv, rfl⟩
        exact ⟨v, (List.find?_cons_of_neg (by simpa using hw)).trans hv, rfl⟩

namespace WellFormed

variable {vouches : List VouchRecord}

theorem nil : WellFormed [] := ⟨nofun, .nil⟩

theorem sublist (h : WellFormed vouches) {rest : List VouchRecord} (hrest : rest.Sublist vouches) : WellFormed rest :=
  ⟨fun v hv => h.staked v (hrest.subset hv), h.distinct.sublist (hrest.map _)⟩

/-- A new record in a pair that is not taken. -/
theorem append (h : WellFormed vouches) {record : VouchRecord} (hstake : 0 < record.stake)
    (hnew : ∀ u ∈ vouches, ¬ (u.voucher = record.voucher ∧ u.token = record.token)) :
    WellFormed (vouches ++ [record]) := by
  constructor
  · intro v hv
    rcases List.mem_append.1 hv with hv | hv
    · exact h.staked v hv
    · rw [List.mem_singleton.1 hv]
      exact hstake
  · rw [List.map_append, List.map_singleton, ← List.concat_eq_append, List.nodup_concat]
    refine ⟨fun hmem => ?_, h.distinct⟩
    obtain ⟨u, hu, hkey⟩ := List.mem_map.1 hmem
    exact hnew u hu (Prod.mk.inj hkey)

theorem setStake (h : WellFormed vouches) {stake : Int} (hstake : 0 < stake) (voucher : Address) :
    WellFormed (setStake voucher stake vouches) := by
  refine ⟨fun v hv => ?_, (setStake_keys voucher stake vouches).symm ▸ h.distinct⟩
  rcases mem_setStake hv with hv | hv
  · exact h.staked v hv
  · rw [hv]
    exact hstake

/-- The new owner has no record in the token of the one that changes hands. -/
theorem setVoucher (h : WellFormed vouches) {src dst : Address} {v : VouchRecord}
    (hfind : findVouch src vouches = some v)
    (hnew : ∀ u ∈ vouches, ¬ (u.voucher = dst ∧ u.token = v.token)) : WellFormed (setVoucher src dst vouches) := by
  constructor
  · intro u hu
    rcases mem_setVoucher hu with hu | ⟨v, hv, rfl⟩
    · exact h.staked u hu
    · exact h.staked v (findVouch_some hv).1
  · induction vouches with
    | nil => exact .nil
    | cons w ws ih =>
      rw [QuorumCredit.setVoucher]
      obtain ⟨hwnew, hwsnew⟩ := List.forall_mem_cons.1 hnew
      obtain ⟨hw, hws⟩ := List.nodup_cons.1 h.distinct
      by_cases hsrc : w.voucher = src
      · rw [findVouch, List.find?_cons_of_pos (by simpa using hsrc)] at hfind
        cases hfind
        rw [if_pos hsrc, List.map_cons, List.nodup_cons]
        refine ⟨fun hmem => ?_, hws⟩
        obtain ⟨u, hu, hkey⟩ := List.mem_map.1 hmem
        exact hwsnew u hu (Prod.mk.inj hkey)
      · rw [findVouch, List.find?_cons_of_neg (by simpa using hsrc)] at hfind
        rw [if_neg hsrc, List.map_cons, List.nodup_cons]
        refine ⟨fun hmem => ?_, ih (h.sublist (List.sublist_cons_self w ws)) hfind hwsnew⟩
        obtain ⟨u, hu, hkey⟩ := List.mem_map.1 hmem
        rcases mem_setVoucher hu with hu | ⟨v', hv', rfl⟩
        · exact hw (hkey ▸ List.mem_map_of_mem hu)
        · -- the record renamed is the one that was found
          obtain rfl := Option.some.inj (hfind.symm.trans hv')
          obtain ⟨hvoucher, htoken⟩ := Prod.mk.inj hkey
          exact hwnew ⟨hvoucher.symm, htoken.symm⟩

end WellFormed

/-! ## Every call -/

theorem forall_update {P : List VouchRecord → Prop} {xs : Records} {b : Address} {vouches : List VouchRecord}
    (h : ∀ a, P (xs a)) (hb : P vouches) (a : Address) : P (update xs b vouches a) := by
  rw [update_apply]
  split
  · exact hb
  · exact h a

theorem Added.wellFormed {w : World} {k : LoanBook} {xs ys : Records} (ha : Added w k xs ys)
    (h : ∀ b, WellFormed (xs b)) (b : Address) : WellFormed (ys b) := by
  induction ha with
  | nil => exact h b
  | cons hnew _ ih => exact ih (forall_update h ((h _).append hnew.staked hnew.unique))

theorem VouchEffect.wellFormed {w : World} {s t : Store} {op : Op} (he : VouchEffect w s t op)
    (h : ∀ b, WellFormed (s.records b)) (b : Address) : WellFormed (t.records b) := by
  cases he with
  | dropped b' _ hdrop =>
    obtain ⟨rest, hrest, ht⟩ := hdrop
    rw [ht]
    exact forall_update h ((h b').sublist hrest) b
  | restaked b' _ hfind hpos ht =>
    rw [ht]
    exact forall_update h ((h b').setStake (hpos ((h b').staked _ (findVouch_some hfind).1)) _) b
  | added _ ha => exact ha.wellFormed h b
  | transferred hfind hnew _ ht =>
    rw [ht]
    exact forall_update h ((h _).setVoucher hfind hnew) b
  | split hfind hpos hlt hvoucher htoken hstake hnew _ ht =>
    rw [ht]
    refine forall_update h (((h _).setStake (Int.sub_pos.2 hlt) _).append (hstake ▸ hpos) fun u hu => ?_) b
    have hkey := List.mem_map_of_mem (f := VouchRecord.key) hu
    rw [setStake_keys] at hkey
    obtain ⟨u', hu', hkey⟩ := List.mem_map.1 hkey
    obtain ⟨hv', ht'⟩ := Prod.mk.inj hkey
    rw [hvoucher, htoken, ← hv', ← ht']
    exact hnew u' hu'
  | rotated hfind _ hvoucher htoken hstake hnew _ ht =>
    rw [ht]
    refine forall_update (forall_update h ((h _).sublist (removeVouch_sublist _ _))) ((h _).append ?_ ?_) b
    · rw [hstake]
      exact (h _).staked _ (findVouch_some hfind).1
    · rw [hvoucher, htoken]
      exact hnew

theorem Reachable.wellFormed {s : State} (hr : Reachable s) (b : Address) : WellFormed (s.store.records b) := by
  obtain ⟨h, hr⟩ := hr
  refine History.inv (p := fun _ _ => True) (I := fun _ s => ∀ b, WellFormed (s.store.records b)) (fun _ _ _ => .nil)
    (fun _ hs hd _ => ?_) (fun hs _ => hs) (fun hs _ _ => hs) hr (along_true h) b
  exact (vouchEffect_of hd).wellFormed hs

/-- In every state the contract can be in, no two records behind a borrower have
the same voucher and token, and every recorded stake is positive. -/
theorem vouch_records_wellFormed {s : State} (hr : Reachable s) (b : Address) :
    ((s.store.records b).map fun v => (v.voucher, v.token)).Nodup ∧ ∀ v ∈ s.store.records b, 0 < v.stake :=
  ⟨(hr.wellFormed b).distinct, (hr.wellFormed b).staked⟩

/-- Two vouches for account 10, one of them handed on. -/
theorem vouch_records_wellFormed_transfer :
    let s := start.play [.call [2] (.vouch 2 10 1000000 100 0), .call [3] (.vouch 3 10 500000 100 0),
      .call [2] (.transferVouch 2 4 10)]
    (s.store.records 10).map (fun v => (v.voucher, v.stake)) = [(4, 1000000), (3, 500000)] ∧
      ((s.store.records 10).map fun v => (v.voucher, v.token)).Nodup ∧ ∀ v ∈ s.store.records 10, 0 < v.stake :=
  ⟨by decide +kernel, vouch_records_wellFormed (Reachable.script sampleWorld sampleBank _) 10⟩

end QuorumCredit
