import QuorumCredit.WithdrawalOrder
/-!
# What processing the queue takes out and pays

`process_withdrawal_queue` decides three things separately: which record an
entry takes out (the voucher's first, whatever its token), whether it is paid
(only in an allowed token), and in which token the fees are shared out (that of
the first entry). `process_withdrawal_batch` drops entries and decides none of
them.
-/

open Host Function

namespace QuorumCredit

/-! ## The records that are taken out -/

/-- How many entries of `u` wait in the queue. -/
def waiting (u : Address) (queue : List QueuedWithdrawal) : Nat := queue.countP (·.voucher = u)

theorem waiting_cons (u : Address) (queued : QueuedWithdrawal) (queue : List QueuedWithdrawal) :
    waiting u (queued :: queue) = waiting u queue + if queued.voucher = u then 1 else 0 := by
  simp [waiting, List.countP_cons]

theorem waiting_append (u : Address) (queue queue' : List QueuedWithdrawal) :
    waiting u (queue ++ queue') = waiting u queue + waiting u queue' := List.countP_append

theorem waiting_pos {u : Address} {queue : List QueuedWithdrawal} :
    0 < waiting u queue ↔ ∃ q ∈ queue, q.voucher = u := by
  simp [waiting, List.countP_pos_iff]

/-- The queue takes the record out: it is one of the first of its voucher's
records, of which each of the voucher's entries takes one. -/
def VouchRecord.TakenOut (queue : List QueuedWithdrawal) (vouches : List VouchRecord) (v : VouchRecord) : Prop :=
  v ∈ (vouches.filter (·.voucher = v.voucher)).take (waiting v.voucher queue)

instance (queue : List QueuedWithdrawal) (vouches : List VouchRecord) (v : VouchRecord) :
    Decidable (v.TakenOut queue vouches) := inferInstanceAs (Decidable (v ∈ _))

section

variable {vouches : List VouchRecord}

theorem filter_removeVouch (u u' : Address) (vouches : List VouchRecord) :
    (removeVouch u' vouches).filter (·.voucher = u) =
      if u' = u then (vouches.filter (·.voucher = u)).tail else vouches.filter (·.voucher = u) := by
  induction vouches with
  | nil => simp [removeVouch]
  | cons v vs ih =>
    rw [removeVouch]
    by_cases hv : v.voucher = u'
    · rw [if_pos hv]
      by_cases hu : u' = u
      · rw [if_pos hu, List.filter_cons_of_pos (by simpa using hv.trans hu), List.tail_cons]
      · rw [if_neg hu, List.filter_cons_of_neg (by simpa using fun h => hu (hv.symm.trans h))]
    · rw [if_neg hv, List.filter_cons, ih]
      by_cases hu : u' = u
      · subst hu
        simp only [hv, decide_false, Bool.false_eq_true, if_false, List.filter_cons]
      · simp only [hu, if_false, List.filter_cons]

/-- What is left of a voucher's records: those beyond one for each of its entries. -/
theorem filter_unqueued (u : Address) (vouches : List VouchRecord) (queue : List QueuedWithdrawal) :
    (unqueued vouches queue).filter (·.voucher = u) = (vouches.filter (·.voucher = u)).drop (waiting u queue) := by
  induction queue generalizing vouches with
  | nil => rfl
  | cons queued queue ih =>
    rw [unqueued, ih, filter_removeVouch, waiting_cons]
    split
    · rw [List.drop_tail]
    · rfl

theorem mem_unqueued (hd : vouches.Nodup) (queue : List QueuedWithdrawal) {v : VouchRecord} :
    v ∈ unqueued vouches queue ↔ v ∈ vouches ∧ ¬ v.TakenOut queue vouches := by
  have hown : ∀ l : List VouchRecord, v ∈ l ↔ v ∈ l.filter (·.voucher = v.voucher) := by
    intro l
    simp [List.mem_filter]
  rw [hown (unqueued vouches queue), filter_unqueued, VouchRecord.TakenOut, hown vouches]
  have hsplit := List.take_append_drop (waiting v.voucher queue) (vouches.filter (·.voucher = v.voucher))
  have hnodup := hd.filter (·.voucher = v.voucher)
  rw [← hsplit] at hnodup
  have hapart := (List.nodup_append.1 hnodup).2.2
  constructor
  · intro hleft
    exact ⟨List.mem_of_mem_drop hleft, fun htaken => hapart v htaken v hleft rfl⟩
  · rintro ⟨hmem, hnot⟩
    rw [← hsplit] at hmem
    exact (List.mem_append.1 hmem).resolve_left hnot

end

/-! ## What is sent -/

/-- What the processing from `x` to `y` sends `u` out of its stakes in the token:
all that the contract sends it, less its shares of the fees. -/
def stakeSent (w : World) (b : Address) (x y : Vault) (u token : Address) : Int :=
  Bank.sent y.bank.log token w.contract u - Bank.sent x.bank.log token w.contract u -
    Bank.sent (feePayments w (x.queue b) (y.records b)) token w.contract u

/-- What it sends out of the priority fees in the token. -/
def feesSent (w : World) (b : Address) (x y : Vault) (token : Address) : Int :=
  Bank.outgo (feePayments w (x.queue b) (y.records b)) token

section

variable {ctx : Context} {b : Address} {x y : Vault}

/-- What a processing that goes through leaves. -/
theorem drained_of (h : processWithdrawalQueue b ctx x = .ok ((), y)) : y = x.drained ctx.toWorld b :=
  ((goes_processWithdrawalQueue b ctx x fun _ z => y = z).1 (.of_run h rfl)).2

theorem stakeSent_drained (w : World) (b : Address) (x : Vault) (u token : Address) :
    stakeSent w b x (x.drained w b) u token =
      Bank.sent (queuePayments w (x.records b) (x.queue b)) token w.contract u := by
  have hleft : (x.drained w b).records b = x.unqueued b := Vault.drained_vouches ..
  rw [stakeSent, hleft, Vault.drained_bank, Bank.sent_moves, Vault.queueTransfers, Bank.sent_append]
  change _ + Bank.sent (feePayments w (x.queue b) (x.unqueued b)) token w.contract u + _ - _ - _ =
    Bank.sent (queuePayments w (x.vouching.vouchesOf b) (x.queue b)) token w.contract u
  omega

/-- In an allowed token, all that is taken off the records is sent; in any other, nothing is. -/
theorem sent_queuePayments_eq (w : World) (u token : Address) (vouches : List VouchRecord)
    (queue : List QueuedWithdrawal) :
    Bank.sent (queuePayments w vouches queue) token w.contract u =
      if w.Allows token then stakesOf u token vouches - stakesOf u token (unqueued vouches queue) else 0 := by
  obtain ⟨hpaid, hunpaid⟩ := queuePayments_allowed w vouches queue
  split
  case isTrue hallowed =>
    have hnone : stakesOf u token (unpaidRecords w vouches queue) = 0 := by
      refine stakesOf_eq_zero u token fun r hr hkey => hunpaid r hr ?_
      rw [(Prod.mk.inj hkey).2]
      exact hallowed
    have hall := stakesOf_unqueued w u token vouches queue
    omega
  case isFalse hallowed =>
    refine Bank.sent_eq_zero fun p hp hto => hallowed ?_
    rw [← hto.1]
    exact hpaid p hp

theorem stakeSent_eq (w : World) (b : Address) (x : Vault) (u token : Address) :
    stakeSent w b x (x.drained w b) u token =
      if w.Allows token then stakesOf u token (x.records b) - stakesOf u token (x.unqueued b) else 0 :=
  (stakeSent_drained ..).trans (sent_queuePayments_eq ..)

end

/-! ## Records told apart by their keys -/

section

variable {vouches left : List VouchRecord} {v : VouchRecord}

theorem WellFormed.nodup (h : WellFormed vouches) : vouches.Nodup := .of_map _ h.distinct

theorem WellFormed.eq_of_key (h : WellFormed vouches) {r : VouchRecord} (hr : r ∈ vouches) (hv : v ∈ vouches)
    (hkey : r.key = v.key) : r = v := List.inj_on_of_nodup_map h.distinct hr hv hkey

/-- The stakes of a record's key are its own. -/
theorem stakesOf_of_mem (h : WellFormed vouches) (hv : v ∈ vouches) :
    stakesOf v.voucher v.token vouches = v.stake := by
  induction vouches with
  | nil => cases hv
  | cons r rs ih =>
    obtain ⟨hfirst, hrest⟩ := List.nodup_cons.1 h.distinct
    have hwell : WellFormed rs := ⟨fun u hu => h.staked u (List.mem_cons_of_mem r hu), hrest⟩
    rw [stakesOf_cons]
    rcases List.mem_cons.1 hv with rfl | hv
    · have hnone : stakesOf v.voucher v.token rs = 0 := by
        refine stakesOf_eq_zero _ _ fun u hu hkey => hfirst ?_
        exact List.mem_map.2 ⟨u, hu, hkey⟩
      have hown : v.key = (v.voucher, v.token) := rfl
      rw [if_pos hown, hnone, Int.add_zero]
    · have hother : r.key ≠ (v.voucher, v.token) := fun hkey => hfirst (List.mem_map.2 ⟨v, hv, hkey.symm⟩)
      rw [if_neg hother, Int.zero_add, ih hwell hv]

/-- Once the record is gone its key has no stake. -/
theorem stakesOf_of_gone (h : WellFormed vouches) (hsub : left.Sublist vouches) (hv : v ∈ vouches) (hgone : v ∉ left) :
    stakesOf v.voucher v.token left = 0 := by
  refine stakesOf_eq_zero _ _ fun r hr hkey => hgone ?_
  rw [← h.eq_of_key (hsub.subset hr) hv hkey]
  exact hr

/-- A sublist is what is left when the others are filtered out. -/
theorem eq_filter_of_sublist {p : VouchRecord → Bool} (hsub : left.Sublist vouches) (hd : vouches.Nodup)
    (hp : ∀ r ∈ vouches, r ∈ left ↔ p r = true) : left = vouches.filter p := by
  induction hsub with
  | slnil => rfl
  | cons r hsub ih =>
    obtain ⟨hr, hd⟩ := List.nodup_cons.1 hd
    obtain ⟨hfirst, hp⟩ := List.forall_mem_cons.1 hp
    have hout : ¬ p r = true := fun h => hr (hsub.subset (hfirst.2 h))
    rw [List.filter_cons_of_neg hout]
    exact ih hd hp
  | @cons_cons left vouches r hsub ih =>
    obtain ⟨hr, hd⟩ := List.nodup_cons.1 hd
    obtain ⟨hfirst, hp⟩ := List.forall_mem_cons.1 hp
    rw [List.filter_cons_of_pos (hfirst.1 List.mem_cons_self)]
    refine congrArg (r :: ·) (ih hd fun u hu => ?_)
    have hne : u ≠ r := fun h => hr (h ▸ hu)
    rw [← hp u hu, List.mem_cons]
    exact ⟨fun h => .inr h, fun h => h.resolve_left hne⟩

theorem unqueued_eq_filter (hd : vouches.Nodup) (queue : List QueuedWithdrawal) :
    unqueued vouches queue = vouches.filter fun v => ¬ v.TakenOut queue vouches := by
  refine eq_filter_of_sublist (sublist_of_unqueued vouches queue) hd fun r hr => ?_
  rw [mem_unqueued hd, decide_eq_true_iff]
  exact and_iff_right hr

end

/-! ## The whole of the processing -/

/-- The processing from `x` to `y` pays what it takes out: a record that goes
matches an entry by voucher and token, its stake is sent in full, and no more
fees are shared out in a token than were collected in it. -/
structure PaysWhatItTakes (w : World) (b : Address) (x y : Vault) : Prop where
  matched : ∀ v ∈ x.records b, v ∉ y.records b → ∃ q ∈ x.queue b, q.voucher = v.voucher ∧ q.token = v.token
  sent : ∀ v ∈ x.records b, v ∉ y.records b → stakeSent w b x y v.voucher v.token = v.stake
  fees : ∀ token, feesSent w b x y token ≤ feesIn token (x.queue b)

/-- Every record the queue takes out is in an allowed token, and in that of one of its voucher's entries. -/
def TakesMatching (w : World) (queue : List QueuedWithdrawal) (vouches : List VouchRecord) : Prop :=
  ∀ v ∈ vouches, v.TakenOut queue vouches →
    w.Allows v.token ∧ ∃ q ∈ queue, q.voucher = v.voucher ∧ q.token = v.token

/-- Where the fees are shared out among the stakes of `left`, those collected in
other tokens come to no more than what rounding the shares down leaves. -/
def FeesWithin (w : World) (queue : List QueuedWithdrawal) (left : List VouchRecord) : Prop :=
  ∀ token, feeToken w queue left = some token →
    (queuedFees queue - feesIn token queue) * stakeSum left ≤ shareRest (queuedFees queue) (stakeSum left) left

section

variable {w : World} {queue : List QueuedWithdrawal} {left : List VouchRecord}

theorem feeToken_some {token : Address} (h : feeToken w queue left = some token) :
    0 < queuedFees queue ∧ 0 < stakeSum left := by
  unfold feeToken at h
  split at h
  · cases h
  · split at h
    case isTrue hpays => exact ⟨hpays.1, hpays.2.1⟩
    case isFalse => cases h

theorem outgo_feePayments_iff (hfees : ∀ q ∈ queue, 0 ≤ q.priorityFee) (hstakes : ∀ v ∈ left, 0 ≤ v.stake) :
    (∀ token, Bank.outgo (feePayments w queue left) token ≤ feesIn token queue) ↔ FeesWithin w queue left := by
  unfold feePayments FeesWithin
  cases htoken : feeToken w queue left with
  | none =>
    refine ⟨fun _ token h => ?_, fun _ token => ?_⟩
    · cases h
    · exact feesIn_nonneg hfees
  | some t =>
    obtain ⟨hcollected, htotal⟩ := feeToken_some htoken
    have hshares := outgo_feeShares w t hcollected.le htotal hstakes
    have hscaled : Bank.outgo (feeShares w t (queuedFees queue) (stakeSum left) left) t ≤ feesIn t queue ↔
        (queuedFees queue - feesIn t queue) * stakeSum left ≤ shareRest (queuedFees queue) (stakeSum left) left := by
      rw [← Int.mul_le_mul_left htotal, Int.sub_mul, Int.mul_comm (feesIn t queue)]
      omega
    constructor
    · rintro h token ⟨⟩
      exact hscaled.1 (h t)
    · intro h token
      by_cases ht : t = token
      · subst ht
        exact hscaled.2 (h t rfl)
      · refine (outgo_feeShares_other w token ht _ _ _).trans_le ?_
        exact feesIn_nonneg hfees

end

/-- Whatever records and entries the queue of `b` is processed with, the
processing pays what it takes out, and shares out no more fees in a token than
were collected in it, exactly if every record taken out is in an allowed token
and in that of an entry of its voucher, and the fees collected in other tokens
than the first entry's are lost in the rounding of the shares. -/
theorem queue_pays_what_it_takes_iff {ctx : Context} {b : Address} {x y : Vault} (hwell : WellFormed (x.records b))
    (hfees : ∀ q ∈ x.queue b, 0 ≤ q.priorityFee) (hrun : processWithdrawalQueue b ctx x = .ok ((), y)) :
    PaysWhatItTakes ctx.toWorld b x y ↔
      TakesMatching ctx.toWorld (x.queue b) (x.records b) ∧
      FeesWithin ctx.toWorld (x.queue b)
        ((x.records b).filter fun v => ¬ v.TakenOut (x.queue b) (x.records b)) := by
  obtain rfl := drained_of hrun
  have hleft : (x.drained ctx.toWorld b).records b = unqueued (x.records b) (x.queue b) := Vault.drained_vouches ..
  have hsub := sublist_of_unqueued (x.records b) (x.queue b)
  have hgone : ∀ v ∈ x.records b, v ∉ (x.drained ctx.toWorld b).records b ↔
      v.TakenOut (x.queue b) (x.records b) := by
    intro v hv
    rw [hleft, mem_unqueued hwell.nodup, not_and, not_not]
    exact ⟨fun h => h hv, fun h _ => h⟩
  have hsent : ∀ v ∈ x.records b, v.TakenOut (x.queue b) (x.records b) →
      (stakeSent ctx.toWorld b x (x.drained ctx.toWorld b) v.voucher v.token = v.stake ↔
        ctx.toWorld.Allows v.token) := by
    intro v hv htaken
    have habsent : v ∉ unqueued (x.records b) (x.queue b) := by
      rw [← hleft]
      exact (hgone v hv).2 htaken
    have hnone : stakesOf v.voucher v.token (x.unqueued b) = 0 := stakesOf_of_gone hwell hsub hv habsent
    have hpositive := hwell.staked v hv
    rw [stakeSent_eq, stakesOf_of_mem hwell hv, hnone]
    split
    case isTrue hallowed => exact ⟨fun _ => hallowed, fun _ => Int.sub_zero _⟩
    case isFalse hallowed => exact ⟨fun h => by omega, fun h => absurd h hallowed⟩
  have hshares : (∀ token, feesSent ctx.toWorld b x (x.drained ctx.toWorld b) token ≤ feesIn token (x.queue b)) ↔
      FeesWithin ctx.toWorld (x.queue b)
        ((x.records b).filter fun v => ¬ v.TakenOut (x.queue b) (x.records b)) := by
    have hstakes : ∀ v ∈ unqueued (x.records b) (x.queue b), 0 ≤ v.stake :=
      fun v hv => (hwell.staked v (hsub.subset hv)).le
    rw [← unqueued_eq_filter hwell.nodup, ← outgo_feePayments_iff hfees hstakes]
    simp only [feesSent, hleft]
  constructor
  · intro h
    refine ⟨fun v hv htaken => ⟨?_, ?_⟩, hshares.1 h.fees⟩
    · exact (hsent v hv htaken).1 (h.sent v hv ((hgone v hv).2 htaken))
    · exact h.matched v hv ((hgone v hv).2 htaken)
  · rintro ⟨htakes, hwithin⟩
    refine ⟨fun v hv hout => ?_, fun v hv hout => ?_, hshares.2 hwithin⟩
    · exact (htakes v hv ((hgone v hv).1 hout)).2
    · exact (hsent v hv ((hgone v hv).1 hout)).2 (htakes v hv ((hgone v hv).1 hout)).1

/-- Accounts 2 and 3 vouch during a loan, and 2 asks for its stake for a fee of 501. -/
def requestedForFee : List Act :=
  [.call [2] (.vouch 2 10 1000000 100 0), .call [3] (.vouch 3 10 1000000 100 0),
    .call [1] (.createLoanPool [1] [10] [500000]), .call [2] (.requestWithdrawal 2 10 501)]

/-- It is paid in full, and account 3 is given the fee. -/
theorem queue_pays_what_it_takes_requested :
    let s := start.play requestedForFee
    ∃ y, processWithdrawalQueue 10 ⟨s.world, []⟩ s.store.vault = .ok ((), y) ∧
      (y.records 10).map (·.voucher) = [3] ∧ PaysWhatItTakes s.world 10 s.store.vault y := by
  intro s
  obtain ⟨u, y, hrun, -⟩ : Goes (processWithdrawalQueue 10) ⟨s.world, []⟩ s.store.vault fun _ _ => True :=
    goes_of_toBool (by decide +kernel)
  have hr := (start_history requestedForFee).vaultInOrder
  have hleft : ((s.store.vault.drained s.world 10).records 10).map (·.voucher) = [3] := by decide +kernel
  have htakes : TakesMatching s.world (s.store.vault.queue 10) (s.store.vault.records 10) := by
    unfold TakesMatching
    decide +kernel
  have htoken : feeToken s.world (s.store.vault.queue 10) ((s.store.vault.records 10).filter fun v =>
      ¬ v.TakenOut (s.store.vault.queue 10) (s.store.vault.records 10)) = some 100 := by decide +kernel
  have hfees : queuedFees (s.store.vault.queue 10) - feesIn 100 (s.store.vault.queue 10) = 0 := by decide +kernel
  refine ⟨y, hrun, ?_, ?_⟩
  · rw [drained_of hrun]
    exact hleft
  · refine (queue_pays_what_it_takes_iff (hr.wellFormed 10) (hr.queues.fees 10) hrun).2 ⟨htakes, ?_⟩
    intro token ht
    obtain rfl := Option.some.inj (htoken.symm.trans ht)
    rw [hfees, Int.zero_mul]
    exact shareRest_nonneg _ (feeToken_some ht).2 _

/-- Account 2 has a record in each of two tokens and withdraws the first one during a loan. -/
def withdrawnFirst : List Act :=
  [.call [2] (.vouch 2 10 1000000 100 0), .call [2] (.vouch 2 10 500000 101 0),
    .call [1] (.createLoanPool [1] [10] [500000]), .call [2] (.withdrawVouch 2 10)]

/-- The entry, in the token of the record withdrawn, takes out the other record. -/
theorem queue_takes_other_token :
    ¬ ∀ (ctx : Context) (b : Address) (x y : Vault), WellFormed (x.records b) →
      (∀ q ∈ x.queue b, 0 ≤ q.priorityFee) → processWithdrawalQueue b ctx x = .ok ((), y) →
      PaysWhatItTakes ctx.toWorld b x y := by
  intro hall
  let s := start.play withdrawnFirst
  obtain ⟨u, y, hrun, -⟩ : Goes (processWithdrawalQueue 10) ⟨s.world, []⟩ s.store.vault fun _ _ => True :=
    goes_of_toBool (by decide +kernel)
  have hr := (start_history withdrawnFirst).vaultInOrder
  have hpays := hall ⟨s.world, []⟩ 10 s.store.vault y (hr.wellFormed 10) (hr.queues.fees 10) hrun
  have hunmatched : ¬ ∀ v ∈ s.store.vault.records 10, v ∉ (s.store.vault.drained s.world 10).records 10 →
      ∃ q ∈ s.store.vault.queue 10, q.voucher = v.voucher ∧ q.token = v.token := by decide +kernel
  rw [drained_of hrun] at hpays
  exact hunmatched hpays.matched

/-! ## In two parts -/

/-- Two processings from `x`, of `y` behind a batch and of `z` alone, leave the
same records and send the same stakes. -/
structure SameDrain (w : World) (b : Address) (x x' y z : Vault) : Prop where
  records : y.records b = z.records b
  sent : ∀ u token, stakeSent w b x' y u token = stakeSent w b x z u token

section

variable {vouches : List VouchRecord}

theorem removeVouch_comm (u u' : Address) (vouches : List VouchRecord) :
    removeVouch u (removeVouch u' vouches) = removeVouch u' (removeVouch u vouches) := by
  induction vouches with
  | nil => rfl
  | cons v vs ih =>
    by_cases hu : v.voucher = u
    · by_cases hu' : v.voucher = u'
      · rw [← hu, ← hu']
      · simp only [removeVouch, if_pos hu, if_neg hu']
    · by_cases hu' : v.voucher = u'
      · simp only [removeVouch, if_neg hu, if_pos hu']
      · simp only [removeVouch, if_neg hu, if_neg hu', ih]

theorem unqueued_removeVouch (u : Address) (vouches : List VouchRecord) (queue : List QueuedWithdrawal) :
    unqueued (removeVouch u vouches) queue = removeVouch u (unqueued vouches queue) := by
  induction queue generalizing vouches with
  | nil => rfl
  | cons queued queue ih => rw [unqueued, removeVouch_comm, ih, unqueued]

theorem removeVouch_of_absent {u : Address} (h : vouches.filter (·.voucher = u) = []) :
    removeVouch u vouches = vouches := by
  refine removeVouch_of_none (List.find?_eq_none.2 fun v hv => ?_)
  exact List.filter_eq_nil_iff.1 h v hv

/-- No voucher of an entry has more records than entries in the rest of the queue. -/
def Exhausted (vouches : List VouchRecord) (dropped rest : List QueuedWithdrawal) : Prop :=
  ∀ q ∈ dropped, (vouches.filter (·.voucher = q.voucher)).length ≤ waiting q.voucher rest

/-- Entries in front take out nothing that the rest does not. -/
theorem unqueued_append_of_exhausted {dropped rest : List QueuedWithdrawal} (h : Exhausted vouches dropped rest) :
    unqueued vouches (dropped ++ rest) = unqueued vouches rest := by
  induction dropped with
  | nil => rfl
  | cons q dropped ih =>
    obtain ⟨hq, hrest⟩ := List.forall_mem_cons.1 h
    rw [List.cons_append, unqueued, unqueued_removeVouch, ih hrest]
    refine removeVouch_of_absent ?_
    rw [filter_unqueued]
    exact List.drop_eq_nil_of_le hq

theorem exhausted_of_unqueued {dropped rest : List QueuedWithdrawal}
    (h : unqueued vouches (dropped ++ rest) = unqueued vouches rest) : Exhausted vouches dropped rest := by
  intro q hq
  have hown := congrArg (fun l => (l.filter (·.voucher = q.voucher)).length) h
  simp only [filter_unqueued, waiting_append, List.length_drop] at hown
  have hwaits := waiting_pos.2 ⟨q, hq, rfl⟩
  omega

end

/-- Dropping the first `count` entries and processing the rest leaves the same
records and sends the same stakes as processing the whole queue, where both go
through, exactly if no voucher among the dropped entries has a record that its
entries in the rest do not take out. -/
theorem batch_then_process_iff {ctx : Context} {b : Address} {count n : Nat} {x y z : Vault} {kept : Vouching}
    (hbatch : processWithdrawalBatch b count ctx x.vouching = .ok (n, kept))
    (hrest : processWithdrawalQueue b ctx { x with vouching := kept } = .ok ((), y))
    (hall : processWithdrawalQueue b ctx x = .ok ((), z)) :
    SameDrain ctx.toWorld b x { x with vouching := kept } y z ↔
      Exhausted (x.records b) ((x.queue b).take count) ((x.queue b).drop count) := by
  obtain rfl : kept = x.vouching.setQueue b ((x.queue b).drop count) :=
    (goes_processWithdrawalBatch b count ctx x.vouching fun _ y =>
      kept = y).1 (.of_run hbatch rfl)
  obtain rfl := drained_of hrest
  obtain rfl := drained_of hall
  let x' : Vault := { x with vouching := x.vouching.setQueue b ((x.queue b).drop count) }
  have hqueue : x'.queue b = (x.queue b).drop count := update_self ..
  have hrecords : x'.records b = x.records b := rfl
  have hy : (x'.drained ctx.toWorld b).records b = unqueued (x.records b) ((x.queue b).drop count) := by
    refine (Vault.drained_vouches ..).trans ?_
    change unqueued (x'.records b) (x'.queue b) = _
    rw [hqueue, hrecords]
  have hz : (x.drained ctx.toWorld b).records b =
      unqueued (x.records b) ((x.queue b).take count ++ (x.queue b).drop count) := by
    rw [List.take_append_drop]
    exact Vault.drained_vouches ..
  constructor
  · intro hsame
    refine exhausted_of_unqueued ?_
    rw [← hz, ← hy]
    exact hsame.records.symm
  · intro hexhausted
    have hleft : (x'.drained ctx.toWorld b).records b = (x.drained ctx.toWorld b).records b := by
      rw [hy, hz, unqueued_append_of_exhausted hexhausted]
    refine ⟨hleft, fun u token => ?_⟩
    have hunqueued : x'.unqueued b = x.unqueued b :=
      (Vault.drained_vouches ..).symm.trans (hleft.trans (Vault.drained_vouches ..))
    rw [stakeSent_eq, stakeSent_eq, hunqueued, hrecords]

/-- Account 2 withdraws and account 3 asks for its stake, in this order; the
entry of account 2 has no record left to take out. -/
theorem batch_then_process_withdrawn :
    let requests : List Act :=
      [.call [2] (.vouch 2 10 1000000 100 0), .call [3] (.vouch 3 10 1000000 100 0),
        .call [1] (.createLoanPool [1] [10] [500000]), .call [2] (.withdrawVouch 2 10),
        .call [3] (.requestWithdrawal 3 10 0)]
    let s := start.play requests
    let x := s.store.vault
    ∃ n kept y z, processWithdrawalBatch 10 1 ⟨s.world, []⟩ x.vouching = .ok (n, kept) ∧
      (kept.withdrawalQueue 10).map (·.voucher) = [3] ∧ z.records 10 = [] ∧
      SameDrain s.world 10 x { x with vouching := kept } y z := by
  intro requests s x
  obtain ⟨n, kept, hbatch, hkept⟩ := (goes_processWithdrawalBatch 10 1 ⟨s.world, []⟩ x.vouching fun _ v =>
    v = x.vouching.setQueue 10 ((x.queue 10).drop 1)).2 rfl
  subst hkept
  obtain ⟨_, y, hrest, -⟩ : Goes (processWithdrawalQueue 10) ⟨s.world, []⟩
      { x with vouching := x.vouching.setQueue 10 ((x.queue 10).drop 1) } fun _ _ => True :=
    goes_of_toBool (by decide +kernel)
  obtain ⟨_, z, hall, -⟩ : Goes (processWithdrawalQueue 10) ⟨s.world, []⟩ x fun _ _ => True :=
    goes_of_toBool (by decide +kernel)
  have hexhausted : Exhausted (x.records 10) ((x.queue 10).take 1) ((x.queue 10).drop 1) := by
    unfold Exhausted
    decide +kernel
  have hleft : (x.drained s.world 10).records 10 = [] := by decide +kernel
  refine ⟨n, _, y, z, hbatch, by decide +kernel, ?_, (batch_then_process_iff hbatch hrest hall).2 hexhausted⟩
  rw [drained_of hall]
  exact hleft

/-- The batch drops the request of account 2, whose record then stays, unpaid. -/
theorem batch_drops_request :
    ¬ ∀ (ctx : Context) (b : Address) (count n : Nat) (x y z : Vault) (kept : Vouching),
      processWithdrawalBatch b count ctx x.vouching = .ok (n, kept) →
      processWithdrawalQueue b ctx { x with vouching := kept } = .ok ((), y) →
      processWithdrawalQueue b ctx x = .ok ((), z) →
      SameDrain ctx.toWorld b x { x with vouching := kept } y z := by
  intro hsame
  let s := start.play requestedForFee
  let x := s.store.vault
  obtain ⟨n, kept, hbatch, hkept⟩ := (goes_processWithdrawalBatch 10 1 ⟨s.world, []⟩ x.vouching fun _ v =>
    v = x.vouching.setQueue 10 ((x.queue 10).drop 1)).2 rfl
  subst hkept
  let x' : Vault := { x with vouching := x.vouching.setQueue 10 ((x.queue 10).drop 1) }
  obtain ⟨_, y, hrest, -⟩ : Goes (processWithdrawalQueue 10) ⟨s.world, []⟩ x' fun _ _ => True :=
    goes_of_toBool (by decide +kernel)
  obtain ⟨_, z, hall, -⟩ : Goes (processWithdrawalQueue 10) ⟨s.world, []⟩ x fun _ _ => True :=
    goes_of_toBool (by decide +kernel)
  have hrecords := (hsame ⟨s.world, []⟩ 10 1 n x y z _ hbatch hrest hall).records
  have hdiffer : (x'.drained s.world 10).records 10 ≠ (x.drained s.world 10).records 10 := by decide +kernel
  rw [drained_of hrest, drained_of hall] at hrecords
  exact hdiffer hrecords

end QuorumCredit
