import QuorumCredit.LiveLoans
import QuorumCredit.Draining
import QuorumCredit.YieldCache
/-!
# Half of a stake over a loan

`partial_withdraw` takes half of a voucher's stake out while the loan is active.
The half is taken of the stake as it stands, so over a whole loan the limit holds
exactly as long as nothing is withdrawn from the same record twice.
-/

open Host Function

namespace QuorumCredit

/-- A voucher's record in a token behind a borrower, and a loan of the borrower. -/
structure Backing where
  borrower : Address
  voucher : Address
  token : Address
  loanId : Nat

/-- What has been withdrawn from a record since some call: its stake before it, what was
taken since, and what its stake has been raised by. -/
structure Withdrawals where
  base : Int
  taken : Int
  added : Int

/-- No more than the share `PARTIAL_WITHDRAWAL_MAX_BPS` of the stake is taken. -/
def Withdrawals.Within (w : Withdrawals) : Prop :=
  w.taken * bpsDenominator ≤ (w.base + w.added) * partialWithdrawalMaxBps

instance (w : Withdrawals) : Decidable w.Within := inferInstanceAs (Decidable (_ ≤ _))

theorem withdrawable_half {stake : Int} (hstake : 0 ≤ stake) :
    2 * withdrawable stake ≤ stake ∧ stake < 2 * (withdrawable stake + 1) := by
  have hhalf : withdrawable stake = stake * 5000 / 10000 :=
    Int.tdiv_eq_ediv_of_nonneg (Int.mul_nonneg hstake (by decide))
  rw [hhalf]
  omega

theorem Withdrawals.within_iff (w : Withdrawals) : w.Within ↔ 2 * w.taken ≤ w.base + w.added := by
  rw [Within, bpsDenominator, partialWithdrawalMaxBps]
  omega

namespace Backing

def stake (k : Backing) (s : Store) : Int := stakesOf k.voucher k.token (s.records k.borrower)

/-- The record is there. -/
def Stands (k : Backing) (s : Store) : Prop := ∃ v ∈ s.records k.borrower, v.key = (k.voucher, k.token)

/-- The call is a `partial_withdraw` from the record, made while the loan is active. -/
def WithdrawnBy (k : Backing) (s : Store) (op : Op) : Prop :=
  op = .partialWithdraw k.voucher k.borrower ∧ s.book.activeLoan k.borrower = some k.loanId ∧
    s.book.hasActiveLoan k.borrower = true ∧
      (findVouch k.voucher (s.records k.borrower)).map (·.token) = some k.token

instance (k : Backing) (s : Store) : Decidable (k.Stands s) :=
  inferInstanceAs (Decidable (∃ v ∈ s.records k.borrower, v.key = (k.voucher, k.token)))

instance (k : Backing) (s : Store) (op : Op) : Decidable (k.WithdrawnBy s op) :=
  inferInstanceAs (Decidable (_ ∧ _ ∧ _ ∧ _))

/-- What a call that goes through adds to the figures. They start with a withdrawal. -/
def count (k : Backing) (s : Store) (op : Op) (t : Store) : Option Withdrawals → Option Withdrawals
  | none => if k.WithdrawnBy s op then some ⟨k.stake s, k.stake s - k.stake t, 0⟩ else none
  | some w =>
    if k.WithdrawnBy s op then some { w with taken := w.taken + (k.stake s - k.stake t) }
    else some { w with added := w.added + max 0 (k.stake t - k.stake s) }

/-- The figures since the first withdrawal of the calls. -/
def withdrawals (k : Backing) : List (State × Move) → Option Withdrawals
  | [] => none
  | e :: h =>
    match done e with
    | some (op, t) => k.count e.1.store op t (withdrawals k h)
    | none => withdrawals k h

/-- The record there is now has been withdrawn from under the loan. -/
def Halved (k : Backing) : List (State × Move) → Prop
  | [] => False
  | e :: h =>
    match done e with
    | some (op, t) => (k.WithdrawnBy e.1.store op ∨ Halved k h) ∧ k.Stands t
    | none => Halved k h

instance (k : Backing) : (h : List (State × Move)) → Decidable (k.Halved h)
  | [] => inferInstanceAs (Decidable False)
  | e :: h =>
    have : Decidable (k.Halved h) := instDecidableHalved k h
    show Decidable (match done e with
      | some (op, t) => (k.WithdrawnBy e.1.store op ∨ k.Halved h) ∧ k.Stands t
      | none => k.Halved h) from
    match done e with
    | some (op, t) => inferInstanceAs (Decidable ((k.WithdrawnBy e.1.store op ∨ k.Halved h) ∧ k.Stands t))
    | none => this

/-- The limit holds from whatever call of the history one starts to count. -/
def LimitKept (k : Backing) (h : List (State × Move)) : Prop :=
  ∀ recent, recent <+: h → ∀ w ∈ k.withdrawals recent, w.Within

/-- A withdrawal is from a record that has not been withdrawn from under the loan. -/
def WithdrawsOnce (k : Backing) (h : List (State × Move)) : State → Move → Prop :=
  WhenDone fun s op => k.WithdrawnBy s.store op → ¬ k.Halved h

end Backing

/-! ## One call -/

section

variable {b : Address} {w : World} {k : LoanBook}

theorem Added.kept {xs ys : Records} (ha : Added w k xs ys) (hactive : k.hasActiveLoan b = true) : ys b = xs b := by
  induction ha with
  | nil => rfl
  | @cons xs a record ys hnew _ ih =>
    have hother : b ≠ a := by
      rintro rfl
      rw [hnew.idle] at hactive
      cases hactive
    rw [ih, update_of_ne hother]

/-- Where a figure is taken off a record, the stakes do not rise. -/
theorem stakesOf_le_of_taken {u token : Address} {left vouches : List VouchRecord} {r : VouchRecord}
    {figure : VouchRecord → Int}
    (hleft : stakesOf u token left + figureOf u token (some r) figure = stakesOf u token vouches)
    (hfigure : 0 ≤ figure r) : stakesOf u token left ≤ stakesOf u token vouches := by
  have htaken : 0 ≤ figureOf u token (some r) figure := by
    change 0 ≤ if r.key = (u, token) then figure r else 0
    split
    · exact hfigure
    · exact le_rfl
  omega

/-- Under an active loan no vouching call raises a stake that is there. -/
theorem Staked.stake_le {x y : Vault} {op : Op} (h : Staked w k x y op) (hactive : k.hasActiveLoan b = true)
    (hstakes : ∀ v ∈ x.records b, 0 ≤ v.stake) {u token : Address} (hthere : ∃ v ∈ x.records b, v.key = (u, token)) :
    stakesOf u token (y.records b) ≤ stakesOf u token (x.records b) := by
  have hupdated : ∀ {a : Address} {vouches : List VouchRecord}, y.records = update x.records a vouches →
      (a = b → stakesOf u token vouches ≤ stakesOf u token (x.records b)) →
        stakesOf u token (y.records b) ≤ stakesOf u token (x.records b) := by
    intro a vouches hy hle
    rw [hy, update_apply]
    split
    case isTrue heq => exact hle heq.symm
    case isFalse => exact le_rfl
  have hbusy : ∀ {a : Address} {P : Prop}, k.hasActiveLoan a = false → a = b → P := by
    rintro a P hidle rfl
    rw [hidle] at hactive
    cases hactive
  have hrecords : y.records = y.vouching.vouchesOf := rfl
  cases h with
  | vouched hcommitted | batched hcommitted => exact (congrArg (stakesOf u token) (hcommitted.added.kept hactive)).le
  | increased _ _ _ hidle hy | decreased _ _ _ _ hidle hy | withdrawn _ _ hidle hy =>
    rw [hy, Vouching.saved_vouchesOf] at hrecords
    exact hupdated hrecords (hbusy hidle)
  | requested _ _ hidle hy =>
    rw [hy, Vouching.setVouches_records] at hrecords
    exact hupdated hrecords (hbusy hidle)
  | transferred _ _ _ hidle hy =>
    rw [hy, Vouching.transferred_vouchesOf] at hrecords
    exact hupdated hrecords (hbusy hidle)
  | split _ _ _ _ _ hidle hy =>
    rw [hy, Vouching.split_vouchesOf] at hrecords
    exact hupdated hrecords (hbusy hidle)
  | decreasedLater hfind hpos _ _ hy =>
    rw [hy, Vouching.queued_vouchesOf, Vouching.saved_vouchesOf] at hrecords
    refine hupdated hrecords ?_
    rintro rfl
    exact stakesOf_le_of_taken (stakesOf_reduceStake u token hfind _) hpos.le
  | withdrawnLater hfind _ hy =>
    rw [hy, Vouching.queued_vouchesOf, Vouching.saved_vouchesOf] at hrecords
    refine hupdated hrecords ?_
    rintro rfl
    exact stakesOf_le_of_taken (stakesOf_removeVouch u token hfind) (hstakes _ (findVouch_some hfind).1)
  | requestedLater _ _ _ _ hy | halvedLater _ _ hy =>
    rw [hy, Vouching.queued_vouchesOf] at hrecords
    exact (congrArg (fun xs : Records => stakesOf u token (xs b)) hrecords).le
  | halved hfind _ _ hpos hy =>
    rw [hy, Vouching.setVouches_records] at hrecords
    refine hupdated hrecords ?_
    rintro rfl
    refine stakesOf_le_of_taken (stakesOf_setStake u token hfind _) ?_
    omega
  | @rotated _ old new _ hne hfind hidle hunique hy =>
    rw [hy, Vouching.moved_vouchesOf] at hrecords
    have hold : b ≠ old := fun heq => hbusy hidle heq.symm
    by_cases hnew : b = new
    · subst hnew
      obtain ⟨v, hv, hkey⟩ := hthere
      obtain ⟨rfl, rfl⟩ := Prod.mk.inj hkey
      rw [hrecords, update_self, stakesOf_append, stakesOf_cons, if_neg]
      · exact (Int.add_zero _).le
      · intro hmoved
        obtain ⟨hvoucher, htoken⟩ := Prod.mk.inj hmoved
        exact hunique v hv ⟨hvoucher.symm.trans (findVouch_some hfind).2, htoken.symm⟩
    · rw [hrecords, update_of_ne hnew, update_of_ne hold]
      exact le_rfl

end

namespace Backing

variable {k : Backing} {s : State} {c : Call} {t : Store} {op : Op}

theorem stake_eq_of_mem {v : VouchRecord} {x : Store} (hwell : WellFormed (x.records k.borrower))
    (hv : v ∈ x.records k.borrower) (hkey : v.key = (k.voucher, k.token)) : k.stake x = v.stake := by
  obtain ⟨hvoucher, htoken⟩ := Prod.mk.inj hkey
  rw [stake, ← hvoucher, ← htoken]
  exact stakesOf_of_mem hwell hv

theorem stake_nonneg {x : Store} (hwell : WellFormed (x.records k.borrower)) : 0 ≤ k.stake x := by
  by_cases hthere : k.Stands x
  · obtain ⟨v, hv, hkey⟩ := hthere
    rw [stake_eq_of_mem hwell hv hkey]
    exact (hwell.staked v hv).le
  · exact (stakesOf_eq_zero _ _ fun v hv hkey => hthere ⟨v, hv, hkey⟩).ge

theorem stake_eq_zero {x : Store} (hgone : ¬ k.Stands x) : k.stake x = 0 :=
  stakesOf_eq_zero _ _ fun v hv hkey => hgone ⟨v, hv, hkey⟩

/-- What a withdrawal does: the part of the stake is taken, and is not nothing, the
record stays, and so does the loan. -/
structure Taken (k : Backing) (s t : Store) : Prop where
  book : t.book = s.book
  positive : 0 < withdrawable (k.stake s)
  stake : k.stake t = k.stake s - withdrawable (k.stake s)
  stands : k.Stands t

theorem taken_of (hd : exec c s = .ok t) (hop : k.WithdrawnBy s.store c.op)
    (hwell : WellFormed (s.store.records k.borrower)) : k.Taken s.store t := by
  obtain ⟨hc, -, hactive, hrecord⟩ := hop
  have hbook : t.book = s.store.book := by
    have hkeeps : Keeps Store.book (dispatch c.op) := by
      rw [hc]
      dsimp only [dispatch]
      infer_instance
    exact yields_exec (hkeeps.out _ _) hd
  have hstaked := staked_of hd (by rw [hc]; rfl)
  rw [hc, hbook] at hstaked
  have hrecords : t.records = t.vault.vouching.vouchesOf := rfl
  have hbefore : s.store.vault.records = s.store.records := rfl
  cases hstaked with
  | halvedLater _ hidle =>
    rw [hidle] at hactive
    cases hactive
  | @halved _ _ v hfind _ _ hpos hy =>
    rw [hy, Vouching.setVouches_records] at hrecords
    obtain ⟨hv, hvoucher⟩ := findVouch_some hfind
    rw [hbefore] at hfind hv
    have htoken : v.token = k.token := by
      rw [hfind] at hrecord
      exact Option.some.inj hrecord
    have hkey : v.key = (k.voucher, k.token) := Prod.ext hvoucher htoken
    have hstake := stake_eq_of_mem hwell hv hkey
    have hafter : t.records k.borrower =
        setStake k.voucher (v.stake - withdrawable v.stake) (s.store.records k.borrower) :=
      (congrFun hrecords _).trans (update_self ..)
    refine ⟨hbook, hstake ▸ hpos, ?_, ?_⟩
    · have hset := stakesOf_setStake k.voucher k.token hfind (v.stake - withdrawable v.stake)
      rw [← hafter] at hset
      change k.stake t + (if v.key = (k.voucher, k.token) then v.stake - (v.stake - withdrawable v.stake) else 0) =
        k.stake s.store at hset
      rw [if_pos hkey] at hset
      rw [hstake] at hset ⊢
      omega
    · have hkeys := List.mem_map_of_mem (f := VouchRecord.key) hv
      rw [← setStake_keys k.voucher (v.stake - withdrawable v.stake), ← hafter] at hkeys
      obtain ⟨r, hr, hsame⟩ := List.mem_map.1 hkeys
      exact ⟨r, hr, hsame.trans hkey⟩

/-- Under an active loan no call raises the stake of the record while it is there. -/
theorem stake_le (hd : exec c s = .ok t) (hactive : t.book.hasActiveLoan k.borrower = true)
    (hwell : WellFormed (s.store.records k.borrower)) (hthere : k.Stands s.store) : k.stake t ≤ k.stake s.store := by
  have hstakes : ∀ v ∈ s.store.records k.borrower, 0 ≤ v.stake := fun v hv => (hwell.staked v hv).le
  by_cases hop : c.op.stakes = true
  · exact (staked_of hd hop).stake_le hactive hstakes hthere
  · obtain ⟨b, -, rest, hsub, ht⟩ := dropped_of hd (Bool.eq_false_of_not_eq_true hop)
    unfold stake
    rw [ht, update_apply]
    split
    case isTrue heq =>
      subst heq
      refine (hsub.map _).sum_le_sum (List.forall_mem_map.2 fun v hv => ?_)
      split
      · exact hstakes v hv
      · exact le_rfl
    case isFalse => exact le_rfl

/-! ## Runs -/

section

variable {h : List (State × Move)} {m : Move}

theorem withdrawals_call (hd : exec c s = .ok t) :
    k.withdrawals ((s, .call c) :: h) = k.count s.store c.op t (k.withdrawals h) := by
  rw [withdrawals, done_ok hd]

theorem withdrawals_idle (hnone : done (s, m) = none) : k.withdrawals ((s, m) :: h) = k.withdrawals h := by
  rw [withdrawals, hnone]

/-- The figures one may start from are none, or those of the calls before with the move counted. -/
theorem forall_withdrawals_cons {P : Withdrawals → Prop}
    (hcons : ∀ recent, recent <+: h → ∀ w ∈ k.withdrawals ((s, m) :: recent), P w) :
    ∀ recent, recent <+: (s, m) :: h → ∀ w ∈ k.withdrawals recent, P w := by
  intro recent hrecent w hw
  rcases List.prefix_cons_iff.1 hrecent with rfl | ⟨before, rfl, hbefore⟩
  · cases hw
  · exact hcons before hbefore w hw

theorem halved_call (hd : exec c s = .ok t) :
    k.Halved ((s, .call c) :: h) ↔ (k.WithdrawnBy s.store c.op ∨ k.Halved h) ∧ k.Stands t := by
  rw [Halved, done_ok hd]

theorem halved_idle (hnone : done (s, m) = none) : k.Halved ((s, m) :: h) ↔ k.Halved h := by
  rw [Halved, hnone]

end

/-- The loan is there, and it is the borrower's. -/
def Lent (k : Backing) (book : LoanBook) : Prop := ∃ loan, book.loan k.loanId = some loan ∧ loan.borrower = k.borrower

/-- Twice what has been taken, and what may still be halved, is within what the stakes
were. A record that has been halved under the loan has seen one withdrawal and no
rise while the loan is live. -/
structure Sound (k : Backing) (h : List (State × Move)) (s : Store) : Prop where
  keyed : s.book.Keyed
  wellFormed : WellFormed (s.records k.borrower)
  within : ∀ recent, recent <+: h → ∀ w ∈ k.withdrawals recent,
    2 * w.taken + (if k.Halved h then 0 else k.stake s) ≤ w.base + w.added
  lent : k.Halved h → k.Lent s.book
  stands : k.Halved h → k.Stands s
  once : k.Halved h → s.book.Live k.loanId →
    ∃ recent, recent <+: h ∧ ∃ w ∈ k.withdrawals recent, 0 ≤ w.base ∧ w.taken = withdrawable w.base ∧ w.added = 0

theorem lent_of_withdrawn {x : Store} (hk : x.book.Keyed) (hop : k.WithdrawnBy x op) :
    k.Lent x.book ∧ x.book.Live k.loanId := by
  obtain ⟨-, hpointer, hactive, -⟩ := hop
  obtain ⟨loan, ho, hst⟩ := LoanBook.hasActiveLoan_iff.1 hactive
  obtain ⟨hid, hstored, hb⟩ := hk.active_record ho
  rw [hpointer] at hid
  rw [← Option.some.inj hid] at hstored
  exact ⟨⟨loan, hstored, hb⟩, loan, hstored, hst, by rw [hb, hpointer]⟩

theorem Lent.hasActiveLoan {book : LoanBook} (hl : k.Lent book) (hlive : book.Live k.loanId) :
    book.hasActiveLoan k.borrower = true := by
  obtain ⟨loan, hstored, hb⟩ := hl
  obtain ⟨loan', hstored', hst, hpointer⟩ := hlive
  obtain rfl := Option.some.inj (hstored.symm.trans hstored')
  rw [hb] at hpointer
  exact LoanBook.hasActiveLoan_iff.2 ⟨loan, Option.bind_eq_some_iff.2 ⟨_, hpointer, hstored⟩, hst⟩

namespace Sound

variable {h : List (State × Move)}

theorem limitKept (hi : k.Sound h s.store) : k.LimitKept h := by
  intro recent hrecent w hw
  have hwithin := hi.within recent hrecent w hw
  have hstake := stake_nonneg hi.wellFormed
  rw [Withdrawals.within_iff]
  split at hwithin
  · omega
  · omega

/-- The first withdrawal from a record. -/
theorem withdrawn (hi : k.Sound h s.store) (hd : exec c s = .ok t) (hop : k.WithdrawnBy s.store c.op)
    (hfirst : ¬ k.Halved h) (hwell : WellFormed (t.records k.borrower)) : k.Sound ((s, .call c) :: h) t := by
  obtain ⟨hbook, -, hstake, hstands⟩ := taken_of hd hop hi.wellFormed
  have hhalved : k.Halved ((s, .call c) :: h) := (halved_call hd).2 ⟨.inl hop, hstands⟩
  have hnonneg := stake_nonneg hi.wellFormed
  have hhalf := (withdrawable_half hnonneg).1
  refine ⟨hbook ▸ hi.keyed, hwell, ?_, fun _ => ?_, fun _ => hstands, fun _ _ => ?_⟩
  · refine forall_withdrawals_cons fun recent hrecent w hw => ?_
    rw [if_pos hhalved]
    rw [withdrawals_call hd] at hw
    cases hfigures : k.withdrawals recent with
    | none =>
      rw [hfigures, count, if_pos hop] at hw
      cases hw
      dsimp only
      omega
    | some w₀ =>
      have hwithin := hi.within recent hrecent w₀ hfigures
      rw [if_neg hfirst] at hwithin
      rw [hfigures, count, if_pos hop] at hw
      cases hw
      dsimp only
      omega
  · rw [hbook]
    exact (lent_of_withdrawn hi.keyed hop).1
  · refine ⟨[(s, .call c)], List.cons_prefix_cons.2 ⟨rfl, List.nil_prefix⟩, ?_⟩
    refine ⟨⟨k.stake s.store, k.stake s.store - k.stake t, 0⟩, ?_, hnonneg, ?_, rfl⟩
    · rw [withdrawals_call hd, withdrawals, count, if_pos hop]
      rfl
    · dsimp only
      omega

/-- Any other call. -/
theorem other (hi : k.Sound h s.store) (hd : exec c s = .ok t) (hop : ¬ k.WithdrawnBy s.store c.op)
    (hwell : WellFormed (t.records k.borrower)) : k.Sound ((s, .call c) :: h) t := by
  have hfades := LoanBook.Fades.effect hi.keyed (effect_of hd)
  have hhalved : k.Halved ((s, .call c) :: h) ↔ k.Halved h ∧ k.Stands t := by
    rw [halved_call hd, or_iff_right hop]
  have hlent : k.Halved h → k.Lent t.book := by
    intro hh
    obtain ⟨loan, hstored, hb⟩ := hi.lent hh
    obtain ⟨loan', hstored', hb'⟩ := hfades.stored hstored
    exact ⟨loan', hstored', hb'.trans hb⟩
  refine ⟨hi.keyed.effect (effect_of hd), hwell, ?_, fun hh => hlent (hhalved.1 hh).1, fun hh => (hhalved.1 hh).2, ?_⟩
  · refine forall_withdrawals_cons fun recent hrecent w hw => ?_
    rw [withdrawals_call hd] at hw
    cases hfigures : k.withdrawals recent with
    | none =>
      rw [hfigures, count, if_neg hop] at hw
      cases hw
    | some w₀ =>
      have hwithin := hi.within recent hrecent w₀ hfigures
      have hnonneg := stake_nonneg hi.wellFormed
      rw [hfigures, count, if_neg hop] at hw
      cases hw
      simp only [hhalved]
      by_cases hstands : k.Stands t
      · simp only [hstands, and_true]
        split at hwithin
        · rw [if_pos ‹_›]
          omega
        · rw [if_neg ‹_›]
          omega
      · have hgone := stake_eq_zero hstands
        rw [hgone, ite_self]
        split at hwithin
        · omega
        · omega
  · intro hh hlive
    obtain ⟨hbefore, hstands⟩ := hhalved.1 hh
    obtain ⟨loan, hstored, -⟩ := hi.lent hbefore
    obtain ⟨recent, hrecent, w, hw, hbase, htaken, hadded⟩ := hi.once hbefore (hfades.live hstored hlive)
    have hle := stake_le hd ((hlent hbefore).hasActiveLoan hlive) hi.wellFormed (hi.stands hbefore)
    refine ⟨(s, .call c) :: recent, List.cons_prefix_cons.2 ⟨rfl, hrecent⟩, ?_⟩
    refine ⟨{ w with added := w.added + max 0 (k.stake t - k.stake s.store) }, ?_, hbase, htaken, ?_⟩
    · rw [withdrawals_call hd, hw, count, if_neg hop]
      rfl
    · dsimp only
      omega

/-- A step that is no call, or a refused one. -/
theorem idle {m : Move} (hi : k.Sound h s.store) (hnone : done (s, m) = none) (hbook : t.book = s.store.book)
    (hrecords : t.records = s.store.records) : k.Sound ((s, m) :: h) t := by
  have hhalved : k.Halved ((s, m) :: h) ↔ k.Halved h := halved_idle hnone
  have hstake : k.stake t = k.stake s.store := by rw [stake, stake, hrecords]
  refine ⟨hbook ▸ hi.keyed, hrecords ▸ hi.wellFormed, ?_, fun hh => ?_, fun hh => ?_, fun hh hlive => ?_⟩
  · refine forall_withdrawals_cons fun recent hrecent w hw => ?_
    simp only [hhalved, hstake]
    rw [withdrawals_idle hnone] at hw
    exact hi.within recent hrecent w hw
  · rw [hbook]
    exact hi.lent (hhalved.1 hh)
  · obtain ⟨v, hv, hkey⟩ := hi.stands (hhalved.1 hh)
    exact ⟨v, hrecords ▸ hv, hkey⟩
  · rw [hbook] at hlive
    obtain ⟨recent, hrecent, hw⟩ := hi.once (hhalved.1 hh) hlive
    refine ⟨(s, m) :: recent, List.cons_prefix_cons.2 ⟨rfl, hrecent⟩, ?_⟩
    rw [withdrawals_idle hnone]
    exact hw

/-- A second withdrawal from a record passes the limit. -/
theorem passed (hi : k.Sound h s.store) (hd : exec c s = .ok t) (hop : k.WithdrawnBy s.store c.op)
    (hagain : k.Halved h) : ¬ k.LimitKept ((s, .call c) :: h) := by
  intro hkept
  obtain ⟨-, hpositive, hstake, -⟩ := taken_of hd hop hi.wellFormed
  obtain ⟨recent, hrecent, w, hw, hbase, htaken, hadded⟩ := hi.once hagain (lent_of_withdrawn hi.keyed hop).2
  have hwithin := hkept _ (List.cons_prefix_cons.2 ⟨rfl, hrecent⟩)
    { w with taken := w.taken + (k.stake s.store - k.stake t) } (by
      rw [withdrawals_call hd, hw, count, if_pos hop]
      rfl)
  rw [Withdrawals.within_iff] at hwithin
  have hhalf := (withdrawable_half hbase).2
  dsimp only at hwithin
  omega

end Sound

/-- In every run, at most half of the stake a record had when a voucher first withdrew
from it under a loan is withdrawn under the loan, with half of what was added since,
exactly if nothing is withdrawn under the loan from a record that already has been. -/
theorem half_withdrawn_iff (k : Backing) {h : List (State × Move)} {s : State} (hr : History h s) :
    Always (fun h _ => k.LimitKept h) h s ↔ Throughout k.WithdrawsOnce h := by
  obtain ⟨world, bank, hr⟩ := hr
  refine Run.always_iff_of_inv (I := fun h s => k.Sound h s.store) ?_ Sound.limitKept ?_ ?_ hr
  · refine ⟨LoanBook.keyed_empty, .nil, ?_, ?_, ?_, ?_⟩
    · intro recent hrecent w hw
      rw [List.prefix_nil.1 hrecent] at hw
      cases hw
    all_goals
      intro hnever
      cases hnever
  · intro h s m s' hr hi hst hok
    cases hst with
    | @done c t hd =>
      have hwell := Reachable.wellFormed ⟨_, world, bank, hr.snoc (.done hd)⟩ k.borrower
      by_cases hop : k.WithdrawnBy s.store c.op
      · exact hi.withdrawn hd hop (hok ⟨t, hd⟩ hop) hwell
      · exact hi.other hd hop hwell
    | refused he => exact hi.idle (done_error he) rfl rfl
    | elsewhere _ _ => exact hi.idle rfl rfl rfl
  · intro h s m s' hr hi hst hkept
    cases hst with
    | done hd =>
      rintro - hop hagain
      exact hi.passed hd hop hagain hkept
    | refused he =>
      rintro ⟨t, hd⟩
      rw [he] at hd
      cases hd
    | elsewhere _ _ => exact trivial

/-- Half of the stake of 1000000 is withdrawn, once. -/
theorem half_withdrawn_once :
    Always (fun h _ => LimitKept ⟨10, 2, 100, 2⟩ h) (start.trace [] halvedLoan) (start.play halvedLoan) ∧
      (withdrawals ⟨10, 2, 100, 2⟩ (start.trace [] halvedLoan)).map (·.taken) = some 500000 := by
  refine ⟨(half_withdrawn_iff _ (start_history halvedLoan)).2 ?_, by decide +kernel⟩
  change Throughout _
    ((start.play requestedLoan, Move.call ⟨[2], .partialWithdraw 2 10⟩) :: start.trace [] requestedLoan)
  have hfirst : ¬ Halved ⟨10, 2, 100, 2⟩ (start.trace [] requestedLoan) := by decide +kernel
  refine ⟨?_, fun _ _ => hfirst⟩
  refine throughout_trace _ (h := []) trivial fun a ha h s => ?_
  simp only [requestedLoan, List.mem_cons, List.not_mem_nil, or_false] at ha
  rcases ha with rfl | rfl | rfl
  all_goals
    rintro - ⟨hop, -⟩
    cases hop

/-- The voucher withdraws a second time: half of what the first time has left. -/
def halvedTwice : List Act := halvedLoan ++ [.call [2] (.partialWithdraw 2 10)]

theorem three_quarters_withdrawn : ¬ ∀ (k : Backing) (h : List (State × Move)) (s : State), History h s →
    k.LimitKept h := by
  intro hall
  have hpassed : (withdrawals ⟨10, 2, 100, 2⟩ (start.trace [] halvedTwice)).any (fun w => ¬ w.Within) = true := by
    decide +kernel
  obtain ⟨w, hw, hnot⟩ := (Option.any_eq_true _ _).1 hpassed
  exact of_decide_eq_true hnot (hall _ _ _ (start_history halvedTwice) _ List.prefix_rfl w hw)

end Backing

end QuorumCredit
