import QuorumCredit.Solvency
/-!
# The order of the withdrawal queue

`queue_withdrawal_internal` puts a new entry where its fee belongs, and nothing
ever sorts the queue again. So processing pays out in the right order only
because every call keeps it: here over every run of the contract in which the
queue may also be processed, or cut short by `process_withdrawal_batch`, at any
time.
-/

open Host Function

namespace QuorumCredit

/-! ## Inserting an entry -/

/-- `p` is served before `q`: for a higher fee, or for the same fee and no later a request. -/
def QueuedWithdrawal.Precedes (p q : QueuedWithdrawal) : Prop :=
  q.priorityFee < p.priorityFee ∨ p.priorityFee = q.priorityFee ∧ p.requestedAt ≤ q.requestedAt

section

variable {entry : QueuedWithdrawal} {queue : List QueuedWithdrawal}

theorem insertEntry_perm (entry : QueuedWithdrawal) (queue : List QueuedWithdrawal) :
    (insertEntry entry queue).Perm (entry :: queue) := by
  induction queue with
  | nil => exact .refl _
  | cons e rest ih =>
    rw [insertEntry]
    split
    · exact .refl _
    · exact (ih.cons e).trans (.swap ..)

theorem insertEntry_sorted (h : queue.Pairwise QueuedWithdrawal.Precedes) :
    (insertEntry entry queue).Pairwise QueuedWithdrawal.Precedes := by
  induction queue with
  | nil => simp [insertEntry]
  | cons e rest ih =>
    obtain ⟨hfirst, hrest⟩ := List.pairwise_cons.1 h
    rw [insertEntry]
    split
    case isTrue hahead =>
      refine List.pairwise_cons.2 ⟨fun q hq => ?_, h⟩
      rcases List.mem_cons.1 hq with rfl | hq
      · unfold QueuedWithdrawal.Precedes
        omega
      · have hbehind := hfirst q hq
        unfold QueuedWithdrawal.Precedes at hbehind ⊢
        omega
    case isFalse hbehind =>
      refine List.pairwise_cons.2 ⟨fun q hq => ?_, ih hrest⟩
      rcases mem_insertEntry.1 hq with rfl | hq
      · unfold QueuedWithdrawal.Precedes
        omega
      · exact hfirst q hq

/-- An entry requested last goes behind every entry of its own fee. -/
theorem filter_insertEntry (h : queue.Pairwise QueuedWithdrawal.Precedes)
    (hlast : ∀ q ∈ queue, q.requestedAt ≤ entry.requestedAt) (fee : Int) :
    (insertEntry entry queue).filter (·.priorityFee = fee) =
      queue.filter (·.priorityFee = fee) ++ if entry.priorityFee = fee then [entry] else [] := by
  induction queue with
  | nil =>
    rw [insertEntry, List.filter_singleton, List.filter_nil, List.nil_append]
    by_cases hfee : entry.priorityFee = fee
    · simp [hfee]
    · simp [hfee]
  | cons e rest ih =>
    obtain ⟨hfirst, hrest⟩ := List.pairwise_cons.1 h
    obtain ⟨helast, hrestlast⟩ := List.forall_mem_cons.1 hlast
    rw [insertEntry]
    split
    case isTrue hahead =>
      -- with no later request behind it, the entry pays a higher fee than all that follow
      have hlower : ∀ q ∈ e :: rest, q.priorityFee < entry.priorityFee := by
        intro q hq
        rcases List.mem_cons.1 hq with rfl | hq
        · omega
        · have hbehind := hfirst q hq
          unfold QueuedWithdrawal.Precedes at hbehind
          omega
      by_cases hfee : entry.priorityFee = fee
      · have hnone : (e :: rest).filter (·.priorityFee = fee) = [] := by
          refine List.filter_eq_nil_iff.2 fun q hq => ?_
          have hless := hlower q hq
          simp only [decide_eq_true_eq]
          omega
        rw [List.filter_cons_of_pos (by simpa using hfee), hnone, if_pos hfee, List.nil_append]
      · rw [List.filter_cons_of_neg (by simpa using hfee), if_neg hfee, List.append_nil]
    case isFalse =>
      rw [List.filter_cons, List.filter_cons, ih hrest hrestlast]
      split
      · rw [List.cons_append]
      · rfl

end

/-! ## What a call does to the queues -/

/-- A call leaves the queues as they are, puts one entry into one of them, or
takes entries off the front of one. -/
inductive QueueEffect (w : World) (queues queues' : Address → List QueuedWithdrawal) : Prop
  | kept : queues' = queues → QueueEffect w queues queues'
  | queued {b entry} : (∀ q ∈ queues b, q.voucher ≠ entry.voucher) → (queues b).length < w.maxWithdrawalQueueSize →
      entry.requestedAt = w.now → queues' = update queues b (insertEntry entry (queues b)) →
      QueueEffect w queues queues'
  | dropped {b n} : queues' = update queues b ((queues b).drop n) → QueueEffect w queues queues'

theorem QueueEffect.emptied {w : World} {queues queues' : Address → List QueuedWithdrawal} {b : Address}
    (h : queues' = update queues b []) : QueueEffect w queues queues' := by
  refine .dropped (b := b) (n := (queues b).length) ?_
  rw [List.drop_length]
  exact h

/-- What a call that goes through does to the queues. -/
theorem queueEffect_of {s : State} {c : Call} {t : Store} (hs : s.store.book.Solid) (hk : s.store.book.Keyed)
    (hd : exec c s = .ok t) : QueueEffect s.world s.store.vault.queues t.vault.queues := by
  by_cases hop : c.op.stakes = true
  · rcases (staked_of hd hop).queued with hkept | ⟨b, entry, -, ⟨hnew, hroom⟩, htime, hqueued⟩
    · exact .kept hkept
    · exact .queued hnew hroom htime hqueued
  · have hop := Bool.eq_false_of_not_eq_true hop
    cases hresolves : c.op.resolves with
    | some b =>
      rcases (resolved_of hs hk hd hresolves).emptied with hkept | ⟨b, hempty⟩
      · exact .kept hkept
      · exact .emptied hempty
    | none => exact .kept (queues_kept hd hop hresolves)

/-! ## Processing part of a queue -/

theorem batchLoop_eq (n i : Nat) (queue : List QueuedWithdrawal) :
    batchLoop n i queue = (min (n - i) queue.length, queue.drop (n - i)) := by
  induction queue generalizing i with
  | nil => simp [batchLoop]
  | cons queued queue ih =>
    rw [batchLoop, ih]
    dsimp only
    split
    case isTrue hi =>
      have hnext : n - i = n - (i + 1) + 1 := by omega
      rw [hnext, List.drop_succ_cons, List.length_cons, Nat.add_min_add_right]
    case isFalse hi =>
      have hnone : n - i = 0 := by omega
      have hrest : n - (i + 1) = 0 := by omega
      simp [hnone, hrest]

/-- A batch goes through, and takes the first entries off the queue. -/
theorem goes_processWithdrawalBatch (b : Address) (count : Nat) (ctx : Context) (x : Vouching)
    (Q : Nat → Vouching → Prop) :
    Goes (processWithdrawalBatch b count) ctx x Q ↔
      Q (min count (x.withdrawalQueue b).length) (x.setQueue b ((x.withdrawalQueue b).drop count)) := by
  have hsame : x.setQueue b (x.withdrawalQueue b) = x := by
    rw [Vouching.setQueue, update_eq_self]
  simp only [processWithdrawalBatch, goes_ite, goes_bind, goes_look, goes_pure, goes_alter, batchLoop_eq, Nat.sub_zero]
  by_cases hcount : count = 0
  · rw [hcount, Nat.zero_min, List.drop_zero, hsame]
    exact ⟨fun h => h.1 rfl, fun h => ⟨fun _ => h, fun hne => absurd rfl hne⟩⟩
  by_cases hempty : x.withdrawalQueue b = []
  · rw [hempty] at hsame
    simp only [hempty, List.drop_nil, List.length_nil, Nat.min_zero, hsame]
    exact ⟨fun h => (h.2 hcount).1 trivial,
      fun h => ⟨fun h0 => absurd h0 hcount, fun _ => ⟨fun _ => h, fun hne => absurd trivial hne⟩⟩⟩
  · have htaken : min (if (x.withdrawalQueue b).length < count then (x.withdrawalQueue b).length else count)
        (x.withdrawalQueue b).length = min count (x.withdrawalQueue b).length := by
      split <;> omega
    have hleft : (x.withdrawalQueue b).drop
        (if (x.withdrawalQueue b).length < count then (x.withdrawalQueue b).length else count) =
          (x.withdrawalQueue b).drop count := by
      split
      case isTrue hlong => rw [List.drop_length, List.drop_of_length_le hlong.le]
      case isFalse => rfl
    rw [htaken, hleft]
    exact ⟨fun h => (h.2 hcount).2 hempty,
      fun h => ⟨fun h0 => absurd h0 hcount, fun _ => ⟨fun he => absurd he hempty, fun _ => h⟩⟩⟩

/-- The storage after the first `count` entries of the queue of `b` are dropped. -/
def State.batched (s : State) (b : Address) (count : Nat) : Option Store :=
  match processWithdrawalBatch b count ⟨s.world, []⟩ s.store.vault.vouching with
  | .ok (_, x) => some { s.store with vault := { s.store.vault with vouching := x } }
  | .error _ => none

theorem State.batched_eq (s : State) (b : Address) (count : Nat) :
    s.batched b count = some { s.store with vault := { s.store.vault with
      vouching := s.store.vault.vouching.setQueue b ((s.store.vault.queue b).drop count) } } := by
  obtain ⟨n, x, hrun, hx⟩ := (goes_processWithdrawalBatch b count ⟨s.world, []⟩ s.store.vault.vouching fun _ y =>
    y = s.store.vault.vouching.setQueue b ((s.store.vault.queue b).drop count)).2 rfl
  rw [State.batched, hrun, hx]

/-! ## Runs -/

/-- A step of the contract, or a queue is processed, wholly or in part. -/
inductive DrainMove where
  | act (m : Move)
  | process (b : Address)
  | batch (b : Address) (count : Nat)

inductive DrainStep : State → DrainMove → State → Prop
  | act {s m s'} : Step s m s' → DrainStep s (.act m) s'
  | process {s b t} : s.processed b = some t → DrainStep s (.process b) { s with store := t }
  | trap {s b} : s.processed b = none → DrainStep s (.process b) s
  | batch {s b count t} : s.batched b count = some t → DrainStep s (.batch b count) { s with store := t }

/-- A run from a contract that has just been initialised. -/
def DrainRun (h : List (State × DrainMove)) (s : State) : Prop :=
  ∃ world bank, Run DrainStep (genesis world bank) h s

/-- The entries that came into the queue of `b`, in the order in which they came. -/
def arrivals (b : Address) : List (State × DrainMove) → State → List QueuedWithdrawal
  | [], _ => []
  | (s₀, _) :: h, s => arrivals b h s₀ ++ (s.store.vault.queue b).filter (· ∉ s₀.store.vault.queue b)

/-- The queue of `b` is in processing order: by fee, then by request, entries of
one fee in the order in which they came, each voucher once, and within its bound. -/
structure QueueInOrder (b : Address) (size : Nat) (h : List (State × DrainMove)) (s : State) : Prop where
  sorted : (s.store.vault.queue b).Pairwise QueuedWithdrawal.Precedes
  arrived : ∀ fee : Int, ((s.store.vault.queue b).filter (·.priorityFee = fee)).Sublist (arrivals b h s)
  distinct : ((s.store.vault.queue b).map (·.voucher)).Nodup
  bounded : (s.store.vault.queue b).length ≤ size

/-- What carries it from step to step. -/
structure QueueSound (b : Address) (size : Nat) (h : List (State × DrainMove)) (s : State) : Prop
    extends QueueInOrder b size h s where
  solid : s.store.book.Solid
  keyed : s.store.book.Keyed
  past : ∀ q ∈ s.store.vault.queue b, q.requestedAt ≤ s.world.now

namespace QueueInOrder

variable {b : Address} {size : Nat} {h : List (State × DrainMove)} {s s' : State}

/-- Entries that leave the queue leave the others in order. -/
theorem dropped (hi : QueueInOrder b size h s) (m : DrainMove) (n : Nat)
    (hs' : s'.store.vault.queue b = (s.store.vault.queue b).drop n) : QueueInOrder b size ((s, m) :: h) s' := by
  have hsub := List.drop_sublist n (s.store.vault.queue b)
  have hnone : ((s.store.vault.queue b).drop n).filter (· ∉ s.store.vault.queue b) = [] := by
    refine List.filter_eq_nil_iff.2 fun q hq => ?_
    simpa using hsub.subset hq
  refine ⟨?_, fun fee => ?_, ?_, ?_⟩
  · rw [hs']
    exact hi.sorted.sublist hsub
  · rw [arrivals, hs', hnone, List.append_nil]
    exact (hsub.filter _).trans (hi.arrived fee)
  · rw [hs']
    exact hi.distinct.sublist (hsub.map _)
  · rw [hs']
    exact hsub.length_le.trans hi.bounded

theorem kept (hi : QueueInOrder b size h s) (m : DrainMove) (hs' : s'.store.vault.queue b = s.store.vault.queue b) :
    QueueInOrder b size ((s, m) :: h) s' := hi.dropped m 0 (by rw [hs', List.drop_zero])

/-- A new entry goes behind those of its fee that were there before. -/
theorem queued (hi : QueueInOrder b size h s) (m : DrainMove) {entry : QueuedWithdrawal}
    (hlast : ∀ q ∈ s.store.vault.queue b, q.requestedAt ≤ entry.requestedAt)
    (hnew : ∀ q ∈ s.store.vault.queue b, q.voucher ≠ entry.voucher) (hroom : (s.store.vault.queue b).length < size)
    (hs' : s'.store.vault.queue b = insertEntry entry (s.store.vault.queue b)) :
    QueueInOrder b size ((s, m) :: h) s' := by
  have hperm := insertEntry_perm entry (s.store.vault.queue b)
  have habsent : entry ∉ s.store.vault.queue b := fun hq => hnew entry hq rfl
  have harrives : (insertEntry entry (s.store.vault.queue b)).filter (· ∉ s.store.vault.queue b) = [entry] := by
    have hold : (s.store.vault.queue b).filter (· ∉ s.store.vault.queue b) = [] := by
      refine List.filter_eq_nil_iff.2 fun q hq => ?_
      simpa using hq
    have hfiltered := hperm.filter (· ∉ s.store.vault.queue b)
    rw [List.filter_cons_of_pos (by simpa using habsent), hold] at hfiltered
    exact List.perm_singleton.1 hfiltered
  refine ⟨?_, fun fee => ?_, ?_, ?_⟩
  · rw [hs']
    exact insertEntry_sorted hi.sorted
  · rw [arrivals, hs', harrives, filter_insertEntry hi.sorted hlast]
    refine (hi.arrived fee).append ?_
    split
    · exact .refl _
    · exact List.nil_sublist _
  · rw [hs', (hperm.map _).nodup_iff, List.map_cons, List.nodup_cons]
    refine ⟨fun hmem => ?_, hi.distinct⟩
    obtain ⟨q, hq, hvoucher⟩ := List.mem_map.1 hmem
    exact hnew q hq hvoucher
  · rw [hs', hperm.length_eq, List.length_cons]
    exact hroom

end QueueInOrder

namespace QueueSound

variable {b : Address} {size : Nat} {h : List (State × DrainMove)} {s s' : State}

/-- A step that does to the queues what a call does. -/
theorem effect (hi : QueueSound b size h s) (hsize : s.world.maxWithdrawalQueueSize = size) (m : DrainMove)
    (he : QueueEffect s.world s.store.vault.queues s'.store.vault.queues) (hworld : s'.world = s.world)
    (hsolid : s'.store.book.Solid) (hkeyed : s'.store.book.Keyed) : QueueSound b size ((s, m) :: h) s' := by
  have hother {b' : Address} {queue : List QueuedWithdrawal} (hb : b ≠ b')
      (hq : s'.store.vault.queues = update s.store.vault.queues b' queue) :
      s'.store.vault.queue b = s.store.vault.queue b := (congrFun hq b).trans (update_of_ne hb ..)
  have hkept (hq : s'.store.vault.queue b = s.store.vault.queue b) : QueueSound b size ((s, m) :: h) s' := by
    refine ⟨hi.toQueueInOrder.kept m hq, hsolid, hkeyed, ?_⟩
    rw [hq, hworld]
    exact hi.past
  cases he with
  | kept hq => exact hkept (congrFun hq b)
  | @queued b' entry hnew hroom hnow hq =>
    by_cases hb : b = b'
    · subst hb
      have hs' : s'.store.vault.queue b = insertEntry entry (s.store.vault.queue b) :=
        (congrFun hq b).trans (update_self ..)
      refine ⟨?_, hsolid, hkeyed, fun q hq' => ?_⟩
      · exact hi.toQueueInOrder.queued m (hnow ▸ hi.past) hnew (hsize ▸ hroom) hs'
      · rw [hs'] at hq'
        rw [hworld]
        rcases mem_insertEntry.1 hq' with rfl | hq'
        · exact hnow.le
        · exact hi.past q hq'
    · exact hkept (hother hb hq)
  | @dropped b' n hq =>
    by_cases hb : b = b'
    · subst hb
      have hs' : s'.store.vault.queue b = (s.store.vault.queue b).drop n := (congrFun hq b).trans (update_self ..)
      refine ⟨hi.toQueueInOrder.dropped m n hs', hsolid, hkeyed, fun q hq' => ?_⟩
      rw [hs'] at hq'
      rw [hworld]
      exact hi.past q (List.mem_of_mem_drop hq')
    · exact hkept (hother hb hq)

theorem step (hi : QueueSound b size h s) (hsize : s.world.maxWithdrawalQueueSize = size) {m : DrainMove}
    (hst : DrainStep s m s') : QueueSound b size ((s, m) :: h) s' := by
  cases hst with
  | act hst =>
    cases hst with
    | done hd =>
      have heffect := effect_of hd
      exact hi.effect hsize _ (queueEffect_of hi.solid hi.keyed hd) rfl (hi.solid.effect hi.keyed heffect)
        (hi.keyed.effect heffect)
    | refused => exact hi.effect hsize _ (.kept rfl) rfl hi.solid hi.keyed
    | elsewhere hnow =>
      exact ⟨hi.toQueueInOrder.kept _ rfl, hi.solid, hi.keyed, fun q hq => (hi.past q hq).trans hnow⟩
  | @process b' _ hp =>
    cases State.processed_eq hp
    have hempty := Vault.drained_queues s.store.vault s.world b'
    exact hi.effect hsize _ (.emptied hempty) rfl hi.solid hi.keyed
  | trap => exact hi.effect hsize _ (.kept rfl) rfl hi.solid hi.keyed
  | batch hp =>
    cases (State.batched_eq ..).symm.trans hp
    exact hi.effect hsize _ (.dropped rfl) rfl hi.solid hi.keyed

end QueueSound

theorem queueSound_run {size : Nat} {h s} (hrun : DrainRun h s)
    (hsize : Along (fun s _ => s.world.maxWithdrawalQueueSize = size) h) (b : Address) : QueueSound b size h s := by
  obtain ⟨world, bank, hrun⟩ := hrun
  refine Run.inv _ (QueueSound b size) ?_ (fun h s m s' _ hi hm hst => hi.step hm hst) hrun hsize
  refine ⟨⟨.nil, fun _ => .slnil, List.nodup_nil, Nat.zero_le _⟩, ?_, LoanBook.keyed_empty, List.forall_mem_nil _⟩
  intro _ _ hl
  cases hl

/-- In every run of the contract in which the queues may also be processed, in
whole or in part, every queue stays in processing order: highest fee first, among
equal fees the earlier request first, and among those the one that came first;
with one entry for each voucher, and no more than the queue may hold. -/
theorem withdrawals_in_order {size : Nat} {h s} (hrun : DrainRun h s)
    (hsize : Along (fun s _ => s.world.maxWithdrawalQueueSize = size) h) (b : Address) : QueueInOrder b size h s :=
  (queueSound_run hrun hsize b).toQueueInOrder

/-- The history of the contract is such a run. -/
theorem History.drainRun {h s} (hr : History h s) : DrainRun (h.map fun e => (e.1, .act e.2)) s := by
  obtain ⟨world, bank, hrun⟩ := hr
  refine ⟨world, bank, ?_⟩
  induction hrun with
  | nil => exact .nil
  | snoc _ hst ih => exact ih.snoc (.act hst)

/-- Accounts 2 and 3 ask for their stakes during a loan, the second of them for a
fee; it is put first. -/
theorem withdrawals_in_order_requested :
    let requests : List Act :=
      [.call [2] (.vouch 2 10 1000000 100 0), .call [3] (.vouch 3 10 1000000 100 0),
        .call [1] (.createLoanPool [1] [10] [500000]), .call [2] (.requestWithdrawal 2 10 0), .wait 60,
        .call [3] (.requestWithdrawal 3 10 500)]
    let h := (start.trace [] requests).map fun e => (e.1, DrainMove.act e.2)
    let s := start.play requests
    (s.store.vault.queue 10).map (·.voucher) = [3, 2] ∧ QueueInOrder 10 50 h s := by
  intro requests h s
  have hrun : DrainRun h s := (start_history requests).drainRun
  have hsize : Along (fun s _ => s.world.maxWithdrawalQueueSize = 50) h := by decide +kernel
  exact ⟨by decide +kernel, withdrawals_in_order hrun hsize 10⟩

end QuorumCredit
