import QuorumCredit.Payouts
import Mathlib.Algebra.BigOperators.Group.List.Basic
/-!
# Stakes that leave through the queue

While a loan is active, `decrease_stake` and `withdraw_vouch` take the stake off
the record at once and queue the withdrawal; `request_withdrawal` leaves the
record alone. The entry in the queue carries no amount: when the queue is
processed it is paid whatever the voucher's first record then holds. So a request
is paid in full, and what the other two have taken off a record is not paid at
all.
-/

open Host Function

namespace QuorumCredit

/-! ## The stakes of one account -/

/-- The stakes of `v` in `token`. -/
def stakesOf (v token : Address) (vouches : List VouchRecord) : Int :=
  (vouches.map fun r => if r.key = (v, token) then r.stake else 0).sum

/-- The figure of a record, if there is one and it is of `v` in `token`. -/
def figureOf (v token : Address) (r : Option VouchRecord) (figure : VouchRecord → Int) : Int :=
  match r with
  | some r => if r.key = (v, token) then figure r else 0
  | none => 0

section

variable (v token : Address) {u : Address} {vouches : List VouchRecord} {own : VouchRecord}

theorem stakesOf_cons (r : VouchRecord) (rs : List VouchRecord) :
    stakesOf v token (r :: rs) = (if r.key = (v, token) then r.stake else 0) + stakesOf v token rs := List.sum_cons

theorem stakesOf_append (rs us : List VouchRecord) :
    stakesOf v token (rs ++ us) = stakesOf v token rs + stakesOf v token us := by
  rw [stakesOf, List.map_append, List.sum_append, stakesOf, stakesOf]

theorem stakesOf_eq_zero (h : ∀ r ∈ vouches, r.key ≠ (v, token)) : stakesOf v token vouches = 0 := by
  refine List.sum_eq_zero fun stake hstake => ?_
  obtain ⟨r, hr, rfl⟩ := List.mem_map.1 hstake
  exact if_neg (h r hr)

theorem findVouch_cons (r : VouchRecord) (rs : List VouchRecord) :
    findVouch u (r :: rs) = if r.voucher = u then some r else findVouch u rs := by
  rw [findVouch, List.find?_cons]
  by_cases hr : r.voucher = u
  · simp [hr]
  · simp [hr, findVouch]

/-- Removing the first record of `u` takes its stake away. -/
theorem stakesOf_removeVouch (hfind : findVouch u vouches = some own) :
    stakesOf v token (removeVouch u vouches) + figureOf v token (some own) (·.stake) = stakesOf v token vouches := by
  induction vouches with
  | nil => cases hfind
  | cons r rs ih =>
    rw [findVouch_cons] at hfind
    rw [removeVouch, stakesOf_cons]
    by_cases hr : r.voucher = u
    · rw [if_pos hr] at hfind ⊢
      cases hfind
      rw [figureOf, Int.add_comm]
    · rw [if_neg hr] at hfind ⊢
      rw [stakesOf_cons, Int.add_assoc, ih hfind]

/-- Setting the stake of the first record of `u` takes the difference away. -/
theorem stakesOf_setStake (hfind : findVouch u vouches = some own) (stake : Int) :
    stakesOf v token (setStake u stake vouches) + figureOf v token (some own) (fun r => r.stake - stake) =
      stakesOf v token vouches := by
  induction vouches with
  | nil => cases hfind
  | cons r rs ih =>
    rw [findVouch_cons] at hfind
    rw [setStake, stakesOf_cons]
    by_cases hr : r.voucher = u
    · rw [if_pos hr] at hfind ⊢
      cases hfind
      rw [figureOf, stakesOf_cons]
      change (if own.key = (v, token) then stake else 0) + stakesOf v token rs +
        (if own.key = (v, token) then own.stake - stake else 0) = _
      split
      · omega
      · omega
    · rw [if_neg hr] at hfind ⊢
      rw [stakesOf_cons, Int.add_assoc, ih hfind]

theorem stakesOf_reduceStake (hfind : findVouch u vouches = some own) (amount : Int) :
    stakesOf v token (reduceStake own amount vouches) + figureOf v token (some own) (fun _ => amount) =
      stakesOf v token vouches := by
  obtain ⟨-, rfl⟩ := findVouch_some hfind
  unfold reduceStake
  split
  case isTrue hall =>
    rw [hall]
    exact stakesOf_removeVouch v token hfind
  case isFalse =>
    have hrest : own.stake - (own.stake - amount) = amount := Int.sub_sub_self ..
    rw [← stakesOf_setStake v token hfind (own.stake - amount), figureOf, figureOf, hrest]

theorem mem_insertEntry {entry q : QueuedWithdrawal} {queue : List QueuedWithdrawal} :
    q ∈ insertEntry entry queue ↔ q = entry ∨ q ∈ queue := by
  induction queue with
  | nil => simp [insertEntry]
  | cons e rest ih =>
    rw [insertEntry]
    split
    · simp
    · rw [List.mem_cons, ih, List.mem_cons, or_left_comm]

end

/-! ## What the queue pays one account -/

/-- The records the queue takes out without paying them: those in a token no longer allowed. -/
def unpaidRecords (w : World) (vouches : List VouchRecord) : List QueuedWithdrawal → List VouchRecord
  | [] => []
  | queued :: queue =>
    ((findVouch queued.voucher vouches).toList.filter fun r => ¬ w.Allows r.token) ++
      unpaidRecords w (removeVouch queued.voucher vouches) queue

section

variable (w : World) (v token : Address)

/-- What the queue takes off the records of `v` it pays, or takes out unpaid. -/
theorem stakesOf_unqueued (vouches : List VouchRecord) (queue : List QueuedWithdrawal) :
    stakesOf v token (unqueued vouches queue) + Bank.sent (queuePayments w vouches queue) token w.contract v +
      stakesOf v token (unpaidRecords w vouches queue) = stakesOf v token vouches := by
  induction queue generalizing vouches with
  | nil => simp [unqueued, queuePayments, unpaidRecords, Bank.sent, stakesOf]
  | cons queued queue ih =>
    rw [unqueued, queuePayments, unpaidRecords, Bank.sent_append, stakesOf_append]
    have hrest := ih (removeVouch queued.voucher vouches)
    cases hfind : findVouch queued.voucher vouches with
    | none =>
      rw [removeVouch_of_none hfind] at hrest ⊢
      simp only [Option.toList_none, List.filter_nil, Bank.sent, stakesOf, List.map_nil, List.sum_nil] at *
      omega
    | some own =>
      have htaken := stakesOf_removeVouch v token hfind
      simp only [figureOf, VouchRecord.key, Prod.mk.injEq] at htaken
      by_cases hallowed : w.Allows own.token
      · have hpaid : Bank.sent [w.payment own.token own.voucher own.stake] token w.contract v =
            if own.voucher = v ∧ own.token = token then own.stake else 0 := by
          simp only [Bank.sent, World.payment, true_and, and_comm, Int.add_zero]
        simp only [hallowed, if_true, hpaid, Option.toList_some, List.filter_singleton, not_true, decide_false,
          Bool.cond_false, stakesOf, List.map_nil, List.sum_nil] at *
        omega
      · have hunpaid : stakesOf v token [own] = if own.voucher = v ∧ own.token = token then own.stake else 0 := by
          simp only [stakesOf, List.map_singleton, List.sum_singleton, VouchRecord.key, Prod.mk.injEq]
        simp only [hallowed, if_false, Option.toList_some, List.filter_singleton, not_false_iff, decide_true,
          Bool.cond_true, hunpaid, Bank.sent] at *
        omega

/-- The queue pays only in tokens that are allowed, and leaves unpaid only records in others. -/
theorem queuePayments_allowed (vouches : List VouchRecord) (queue : List QueuedWithdrawal) :
    (∀ p ∈ queuePayments w vouches queue, w.Allows p.token) ∧
      ∀ r ∈ unpaidRecords w vouches queue, ¬ w.Allows r.token := by
  induction queue generalizing vouches with
  | nil => exact ⟨List.forall_mem_nil _, List.forall_mem_nil _⟩
  | cons queued queue ih =>
    obtain ⟨hpaid, hunpaid⟩ := ih (removeVouch queued.voucher vouches)
    refine ⟨fun p hp => ?_, fun r hr => ?_⟩
    · rcases List.mem_append.1 hp with hp | hp
      · split at hp
        · split at hp
          case isTrue hallowed =>
            rw [List.mem_singleton.1 hp]
            exact hallowed
          case isFalse => cases hp
        · cases hp
      · exact hpaid p hp
    · rcases List.mem_append.1 hr with hr | hr
      · simpa using (List.mem_filter.1 hr).2
      · exact hunpaid r hr

theorem queuePayments_src (vouches : List VouchRecord) (queue : List QueuedWithdrawal) :
    ∀ p ∈ queuePayments w vouches queue, p.src = w.contract := by
  induction queue generalizing vouches with
  | nil => exact List.forall_mem_nil _
  | cons queued queue ih =>
    intro p hp
    rcases List.mem_append.1 hp with hp | hp
    · split at hp
      · split at hp
        · rw [List.mem_singleton.1 hp]
          rfl
        · cases hp
      · cases hp
    · exact ih _ p hp

theorem feePayments_src (vouches : List VouchRecord) (queue : List QueuedWithdrawal) :
    ∀ p ∈ feePayments w queue vouches, p.src = w.contract := by
  intro p hp
  unfold feePayments at hp
  split at hp
  · obtain ⟨r, -, hr⟩ := List.mem_filterMap.1 hp
    split at hr
    · cases hr
      rfl
    · cases hr
  · cases hp

end

/-! ## What a queued call does -/

/-- The call of `u` queues a withdrawal from the vouches for `b`, charges a fee
and leaves the records `left`. -/
structure Queues (w : World) (b u : Address) (fee : Int) (own : VouchRecord) (left : List VouchRecord) (x y : Vault) :
    Prop where
  found : findVouch u (x.vouching.vouchesOf b) = some own
  records : y.vouching.vouchesOf b = left
  queue : y.queue b = insertEntry ⟨u, own.token, w.now, false, fee⟩ (x.queue b)
  bank : y.bank = if 0 < fee then x.bank.move own.token u w.contract fee else x.bank

/-- What a queued call takes off the records of `v` in `token`. -/
def Op.takes (v token : Address) (vouches : List VouchRecord) : Op → Int
  | .decreaseStake u _ amount => figureOf v token (findVouch u vouches) fun _ => amount
  | .withdrawVouch u _ => figureOf v token (findVouch u vouches) (·.stake)
  | _ => 0

/-- The fee it charges `v` in `token`. -/
def Op.charges (v token : Address) (vouches : List VouchRecord) : Op → Int
  | .requestWithdrawal u _ fee => figureOf v token (findVouch u vouches) fun _ => fee
  | _ => 0

/-- The calls that queue withdrawals from the vouches for `b`. -/
def Op.QueuesFor (b : Address) : Op → Prop
  | .decreaseStake _ b' _ | .withdrawVouch _ b' | .requestWithdrawal _ b' _ => b' = b
  | _ => False

/-- An entry of `v` waits in the queue. -/
def Vault.Waits (x : Vault) (b v : Address) : Prop := ∃ q ∈ x.queue b, q.voucher = v

instance (x : Vault) (b v : Address) : Decidable (x.Waits b v) := inferInstanceAs (Decidable (∃ q ∈ _, _))

/-- What a queued call means for `v`: its stakes go down by what the call takes,
it pays the fee, is paid nothing, and has an entry in the queue for what was taken. -/
structure Accounts (w : World) (b v token : Address) (takes charges : Int) (x y : Vault) : Prop where
  stakes : stakesOf v token (y.vouching.vouchesOf b) + takes = stakesOf v token (x.vouching.vouchesOf b)
  paid : Bank.sent y.bank.log token w.contract v = Bank.sent x.bank.log token w.contract v
  charged : Bank.sent y.bank.log token v w.contract = charges + Bank.sent x.bank.log token v w.contract
  waits : takes ≠ 0 ∨ x.Waits b v → y.Waits b v

section

variable {w : World} {b u v token : Address} {fee : Int} {own : VouchRecord} {left : List VouchRecord} {x y : Vault}

theorem Queues.accounts (h : Queues w b u fee own left x y) (hfee : 0 ≤ fee) (hv : v ≠ w.contract)
    {figure : VouchRecord → Int}
    (hleft : stakesOf v token left + figureOf v token (some own) figure = stakesOf v token (x.vouching.vouchesOf b)) :
    Accounts w b v token (figureOf v token (some own) figure) (figureOf v token (some own) fun _ => fee) x y := by
  obtain ⟨-, hu⟩ := findVouch_some h.found
  have hkey : own.key = (v, token) ↔ own.token = token ∧ u = v := by
    rw [VouchRecord.key, Prod.mk.injEq, hu, and_comm]
  refine ⟨h.records ▸ hleft, ?_, ?_, fun hwaits => ?_⟩
  · rw [h.bank]
    split
    · rw [Bank.sent_move, if_neg (fun hto => hv hto.2.2.symm), Int.zero_add]
    · rfl
  · simp only [h.bank, figureOf, hkey]
    split
    · rw [Bank.sent_move]
      simp only [and_true]
    · have hzero : fee = 0 := by omega
      rw [hzero, ite_self, Int.zero_add]
  · rw [Vault.Waits, h.queue]
    rcases hwaits with htaken | ⟨q, hq, hvoucher⟩
    · refine ⟨_, mem_insertEntry.2 (.inl rfl), ?_⟩
      by_contra hother
      exact htaken (if_neg fun hown => hother (hkey.1 hown).2)
    · exact ⟨q, mem_insertEntry.2 (.inr hq), hvoucher⟩

end

/-- During an active loan the calls queue: two take from the records, the third charges its fee. -/
theorem Staked.accounts {w : World} {k : LoanBook} {x y : Vault} {op : Op} {b v : Address} (token : Address)
    (h : Staked w k x y op) (hop : op.QueuesFor b) (hactive : k.hasActiveLoan b = true) (hv : v ≠ w.contract) :
    Accounts w b v token (op.takes v token (x.records b)) (op.charges v token (x.records b)) x y := by
  have hzero (own : VouchRecord) : figureOf v token (some own) (fun _ => 0) = 0 := ite_self _
  cases h with
  | @decreasedLater u _ amount own hfind _ _ _ hy hbank =>
    cases hop
    have hq : Queues w b u 0 own (reduceStake own amount (x.records b)) x y := by
      refine ⟨hfind, ?_, ?_, ?_⟩
      · rw [hy, Vouching.queued_vouchesOf, Vouching.saved_vouchesOf, update_self]
      · rw [Vault.queue, hy]
        exact update_self ..
      · exact hbank
    have haccounts := hq.accounts le_rfl hv (stakesOf_reduceStake v token hfind amount)
    rw [hzero] at haccounts
    rw [Op.takes, hfind]
    exact haccounts
  | @withdrawnLater u _ own hfind _ hy hbank =>
    cases hop
    have hq : Queues w b u 0 own (removeVouch u (x.records b)) x y := by
      refine ⟨hfind, ?_, ?_, ?_⟩
      · rw [hy, Vouching.queued_vouchesOf, Vouching.saved_vouchesOf, update_self]
      · rw [Vault.queue, hy]
        exact update_self ..
      · exact hbank
    have haccounts := hq.accounts le_rfl hv (stakesOf_removeVouch v token hfind)
    rw [hzero] at haccounts
    rw [Op.takes, hfind]
    exact haccounts
  | @requestedLater u _ fee own hfind _ hfee _ hy hbank =>
    cases hop
    have hq : Queues w b u fee own (x.records b) x y := by
      refine ⟨hfind, ?_, ?_, ?_⟩
      · rw [hy]
        rfl
      · rw [Vault.queue, hy]
        exact update_self ..
      · exact hbank
    have hkept : stakesOf v token (x.records b) + figureOf v token (some own) (fun _ => 0) =
        stakesOf v token (x.records b) := by rw [hzero, Int.add_zero]
    have haccounts := hq.accounts hfee hv hkept
    rw [hzero] at haccounts
    rw [Op.charges, hfind]
    exact haccounts
  | decreased _ _ _ _ hidle | withdrawn _ _ hidle | requested _ _ hidle =>
    cases hop
    rw [hidle] at hactive
    cases hactive
  | _ => cases hop

theorem dispatch_accounts (ctx : Context) {s : Store} {op : Op} {b v : Address} (token : Address) (hop : op.QueuesFor b)
    (hactive : s.book.hasActiveLoan b = true) (hv : v ≠ ctx.contract) :
    Yields (dispatch op) ctx s fun _ t => t.book = s.book ∧
      Accounts ctx.toWorld b v token (op.takes v token (s.records b)) (op.charges v token (s.records b)) s.vault
        t.vault := by
  have hstakes : op.stakes = true := by cases op <;> cases hop <;> rfl
  have hbook : Keeps Store.book (dispatch op) := by
    cases op <;> cases hop <;> dsimp only [dispatch] <;> infer_instance
  refine ((dispatch_staked hstakes).and (hbook.out ctx s)).mono fun _ t h => ?_
  obtain ⟨hstaked, hkept⟩ := h
  rw [hkept] at hstaked
  exact ⟨hkept, hstaked.accounts token hop hactive hv⟩

/-! ## Runs of the queue -/

/-- What happens in a run: a call or something elsewhere, or the queue is processed. -/
inductive QueueMove where
  | act (m : Move)
  | process

/-- The storage after the queue of `b` is processed, if that goes through. -/
def State.processed (s : State) (b : Address) : Option Store :=
  match processWithdrawalQueue b ⟨s.world, []⟩ s.store.vault with
  | .ok (_, x) => some { s.store with vault := x }
  | .error _ => none

/-- Processing that goes through leaves the drained vault. -/
theorem State.processed_eq {s : State} {b : Address} {t : Store} (h : s.processed b = some t) :
    t = { s.store with vault := s.store.vault.drained s.world b } := by
  unfold State.processed at h
  split at h
  case h_1 x hrun =>
    obtain ⟨-, hx⟩ := (goes_processWithdrawalQueue b ⟨s.world, []⟩ s.store.vault fun _ y => x = y).1
      (.of_run hrun rfl)
    rw [← hx]
    exact (Option.some.inj h).symm
  case h_2 => cases h

/-- A call works on the vouches for `b`. -/
def Move.QueuesFor (b : Address) : Move → Prop
  | .call c => c.op.QueuesFor b
  | .elsewhere .. => True

/-- The steps of the four operations for `b`; one that fails changes nothing. -/
inductive QueueStep (b : Address) : State → QueueMove → State → Prop
  | act {s m s'} : Step s m s' → m.QueuesFor b → QueueStep b s (.act m) s'
  | process {s t} : s.processed b = some t → QueueStep b s .process { s with store := t }
  | trap {s} : s.processed b = none → QueueStep b s .process s

section Run

variable (b v token : Address)

/-- The storage an entry of the run left, if it went through. -/
def leaves : State × QueueMove → Option Store
  | (s, .act m) => (done (s, m)).map (·.2)
  | (s, .process) => s.processed b

/-- What `src` sent `dst` in `token` over the run. -/
def transferred (src dst : Address) (h : List (State × QueueMove)) : Int :=
  (h.map fun e => match leaves b e with
    | some t => Bank.sent t.bank.log token src dst - Bank.sent e.1.store.bank.log token src dst
    | none => 0).sum

/-- A figure of the call, in an entry that is one that went through. -/
def figureOfCall (figure : List VouchRecord → Op → Int) : State × QueueMove → Int
  | (s, .act m) =>
    match done (s, m) with
    | some (op, _) => figure (s.store.records b) op
    | none => 0
  | (_, .process) => 0

/-- The fees the run charged `v`. -/
def feesCharged (h : List (State × QueueMove)) : Int :=
  (h.map (figureOfCall b fun vouches op => op.charges v token vouches)).sum

/-- What calls have taken off the records of `v` since the queue was last processed. -/
def taken : List (State × QueueMove) → Int
  | [] => 0
  | (s, .act m) :: h => figureOfCall b (fun vouches op => op.takes v token vouches) (s, .act m) + taken h
  | (s, .process) :: h =>
    match s.processed b with
    | some _ => 0
    | none => taken h

/-- What the entry of `v` that waits in the queue owes it. -/
def owed (h : List (State × QueueMove)) (s : State) : Int :=
  if s.store.vault.Waits b v then taken b v token h else 0

/-- Processing the queue keeps nothing back: it finds nothing owed to `v`, takes
out no record of `v` unpaid, and gives `v` no share of the fees. -/
structure PaysInFull (h : List (State × QueueMove)) (s : State) : Prop where
  nothingOwed : owed b v token h s = 0
  allowed : ∀ r ∈ unpaidRecords s.world (s.store.records b) (s.store.vault.queue b), r.key ≠ (v, token)
  noShare : ∀ p ∈ feePayments s.world (s.store.vault.queue b) (s.store.vault.unqueued b),
    ¬ (p.token = token ∧ p.dst = v)

/-- On a step that processes the queue and goes through, it pays `v` in full. -/
def WhenProcessed (h : List (State × QueueMove)) (s : State) (m : QueueMove) : Prop :=
  m = .process → s.processed b ≠ none → PaysInFull b v token h s

end Run

/-- The stakes of `v` have gone down by what it was paid and what is taken and
still owed, and the fees are what it has paid. -/
structure Balanced (b v token : Address) (s₀ : State) (h : List (State × QueueMove)) (s : State) : Prop where
  book : s.store.book = s₀.store.book
  contract : s.world.contract = s₀.world.contract
  stakes : stakesOf v token (s.store.records b) + transferred b token s₀.world.contract v h + taken b v token h =
    stakesOf v token (s₀.store.records b)
  fees : transferred b token v s₀.world.contract h = feesCharged b v token h
  waits : taken b v token h ≠ 0 → s.store.vault.Waits b v

namespace Balanced

variable {b v token : Address} {s₀ s s' : State} {h : List (State × QueueMove)}

/-- An entry that did nothing. -/
theorem idle (hi : Balanced b v token s₀ h s) {m : QueueMove} (hm : leaves b (s, m) = none)
    (hbook : s'.store.book = s.store.book) (hcontract : s'.world.contract = s.world.contract)
    (hvouching : s'.store.vault.vouching = s.store.vault.vouching) : Balanced b v token s₀ ((s, m) :: h) s' := by
  have hsent (src dst : Address) : transferred b token src dst ((s, m) :: h) = transferred b token src dst h := by
    rw [transferred, List.map_cons, List.sum_cons, hm, transferred]
    exact Int.zero_add _
  have hcall (figure : List VouchRecord → Op → Int) : figureOfCall b figure (s, m) = 0 := by
    cases m with
    | act m =>
      rw [figureOfCall, Option.map_eq_none_iff.1 hm]
    | process => rfl
  have hfees : feesCharged b v token ((s, m) :: h) = feesCharged b v token h := by
    rw [feesCharged, List.map_cons, List.sum_cons, hcall, feesCharged, Int.zero_add]
  have htaken : taken b v token ((s, m) :: h) = taken b v token h := by
    cases m with
    | act m => rw [taken, hcall, Int.zero_add]
    | process =>
      have hnone : s.processed b = none := hm
      rw [taken, hnone]
  have hrecords : s'.store.records = s.store.records := congrArg Vouching.vouchesOf hvouching
  refine ⟨hbook.trans hi.book, hcontract.trans hi.contract, ?_, ?_, ?_⟩
  · rw [hrecords, hsent, htaken, hi.stakes]
  · rw [hsent, hfees, hi.fees]
  · rw [htaken, Vault.Waits, Vault.queue, hvouching]
    exact hi.waits

/-- A call that goes through. -/
theorem call {c : Call} {t : Store} (hi : Balanced b v token s₀ h s) (hactive : s₀.store.book.hasActiveLoan b = true)
    (hv : v ≠ s₀.world.contract) (hd : exec c s = .ok t) (hop : c.op.QueuesFor b) :
    Balanced b v token s₀ ((s, .act (.call c)) :: h) { s with store := t } := by
  obtain ⟨hbook, hstakes, hpaid, hcharged, hwaits⟩ := yields_exec (dispatch_accounts (s.context c) token hop
    (hi.book ▸ hactive) (hi.contract ▸ hv)) hd
  change stakesOf v token (t.records b) + c.op.takes v token (s.store.records b) = stakesOf v token (s.store.records b)
    at hstakes
  change Bank.sent t.bank.log token s.world.contract v = Bank.sent s.store.bank.log token s.world.contract v at hpaid
  change Bank.sent t.bank.log token v s.world.contract = c.op.charges v token (s.store.records b) +
    Bank.sent s.store.bank.log token v s.world.contract at hcharged
  rw [hi.contract] at hpaid hcharged
  have hleaves : leaves b (s, .act (.call c)) = some t := by rw [leaves, done_ok hd, Option.map_some]
  have hcall (figure : List VouchRecord → Op → Int) :
      figureOfCall b figure (s, .act (.call c)) = figure (s.store.records b) c.op := by rw [figureOfCall, done_ok hd]
  have hsent (src dst : Address) : transferred b token src dst ((s, .act (.call c)) :: h) =
      Bank.sent t.bank.log token src dst - Bank.sent s.store.bank.log token src dst +
        transferred b token src dst h := by
    rw [transferred, List.map_cons, List.sum_cons, hleaves, transferred]
  refine ⟨hbook.trans hi.book, hi.contract, ?_, ?_, fun htaken => ?_⟩
  · have hstakes₀ := hi.stakes
    rw [hsent, taken, hcall]
    change stakesOf v token (t.records b) + _ + _ = _
    omega
  · have hfees := hi.fees
    rw [hsent, feesCharged, List.map_cons, List.sum_cons, hcall, ← feesCharged]
    omega
  · rw [taken, hcall] at htaken
    by_cases htakes : c.op.takes v token (s.store.records b) = 0
    · rw [htakes, Int.zero_add] at htaken
      exact hwaits (.inr (hi.waits htaken))
    · exact hwaits (.inl htakes)

/-- The queue is processed and pays `v` in full. -/
theorem process {t : Store} (hi : Balanced b v token s₀ h s) (hv : v ≠ s₀.world.contract)
    (hp : s.processed b = some t) (hfull : PaysInFull b v token h s) :
    Balanced b v token s₀ ((s, .process) :: h) { s with store := t } := by
  obtain rfl := State.processed_eq hp
  have hleaves : leaves b (s, .process) = some { s.store with vault := s.store.vault.drained s.world b } := hp
  have hsent (src dst : Address) : transferred b token src dst ((s, .process) :: h) =
      Bank.sent (s.store.vault.queueTransfers s.world b) token src dst + transferred b token src dst h := by
    rw [transferred, List.map_cons, List.sum_cons, hleaves, transferred]
    change Bank.sent (s.store.vault.drained s.world b).bank.log token src dst - _ + _ = _
    rw [Vault.drained_bank, Bank.sent_moves]
    exact congrArg (· + _) (Int.add_sub_cancel ..)
  have htaken : taken b v token h = 0 := by
    by_contra hsome
    have howed := hfull.nothingOwed
    rw [owed, if_pos (hi.waits hsome)] at howed
    exact hsome howed
  have htaken' : taken b v token ((s, .process) :: h) = 0 := by rw [taken, hp]
  have hsrc : ∀ p ∈ s.store.vault.queueTransfers s.world b, p.src = s.world.contract := by
    intro p hp
    rcases List.mem_append.1 hp with hp | hp
    · exact queuePayments_src _ _ _ p hp
    · exact feePayments_src _ _ _ p hp
  refine ⟨hi.book, hi.contract, ?_, ?_, fun hsome => absurd htaken' hsome⟩
  · have hunqueued := stakesOf_unqueued s.world v token (s.store.records b) (s.store.vault.queue b)
    have hunpaid : stakesOf v token (unpaidRecords s.world (s.store.records b) (s.store.vault.queue b)) = 0 :=
      stakesOf_eq_zero v token hfull.allowed
    have hshares : Bank.sent (feePayments s.world (s.store.vault.queue b) (s.store.vault.unqueued b)) token
        s.world.contract v = 0 := Bank.sent_eq_zero fun p hp hto => hfull.noShare p hp ⟨hto.1, hto.2.2⟩
    have hstakes := hi.stakes
    rw [hsent, htaken', Vault.queueTransfers, Bank.sent_append, ← hi.contract, hshares]
    rw [← hi.contract] at hstakes
    change stakesOf v token ((s.store.vault.drained s.world b).vouching.vouchesOf b) + _ + _ = _
    rw [Vault.drained_vouches]
    change stakesOf v token (s.store.vault.unqueued b) + _ + _ = _ at hunqueued
    change stakesOf v token (s.store.vault.unqueued b) +
      (Bank.sent (queuePayments s.world (s.store.records b) (s.store.vault.queue b)) token s.world.contract v + 0 + _) +
      0 = _
    omega
  · have hnone : Bank.sent (s.store.vault.queueTransfers s.world b) token v s₀.world.contract = 0 :=
      Bank.sent_eq_zero fun p hp hto => hv (hto.2.1.symm.trans ((hsrc p hp).trans hi.contract))
    rw [hsent, hnone, Int.zero_add, hi.fees, feesCharged, feesCharged, List.map_cons, List.sum_cons]
    exact (Int.zero_add _).symm

end Balanced

theorem balanced_run {b v : Address} {s₀ h s} (hactive : s₀.store.book.hasActiveLoan b = true)
    (hv : v ≠ s₀.world.contract) (token : Address) (hrun : Run (QueueStep b) s₀ h s)
    (hok : Throughout (WhenProcessed b v token) h) : Balanced b v token s₀ h s := by
  refine Run.inv_throughout _ (Balanced b v token s₀) ⟨rfl, rfl, ?_, rfl, fun hsome => absurd rfl hsome⟩ ?_ hrun hok
  · simp only [transferred, taken, List.map_nil, List.sum_nil, Int.add_zero]
  · rintro h s m s' - hi hfull hst
    cases hst with
    | act hst hop =>
      cases hst with
      | done hd => exact hi.call hactive hv hd hop
      | refused he => exact hi.idle (by rw [leaves, done_error he]; rfl) rfl rfl rfl
      | elsewhere _ hcontract => exact hi.idle rfl rfl hcontract rfl
    | process hp => exact hi.process hv hp (hfull rfl (by rw [hp]; exact Option.some_ne_none _))
    | trap hp => exact hi.idle hp rfl rfl rfl

/-- In every run of the four operations during an active loan of `b`, what has
left the records of `v` is what the contract has paid `v`, net of what `v` has
paid it, with the fees charged to `v` and what `v`'s waiting entry still owes it,
as long as every processing of the queue pays `v` in full; and with nothing left
in the queue all of it has been paid. -/
theorem no_stake_lost {b v : Address} {s₀ h s} (hactive : s₀.store.book.hasActiveLoan b = true)
    (hv : v ≠ s₀.world.contract) (token : Address) (hrun : Run (QueueStep b) s₀ h s)
    (hok : Throughout (WhenProcessed b v token) h) :
    stakesOf v token (s₀.store.records b) - stakesOf v token (s.store.records b) =
      (transferred b token s₀.world.contract v h - transferred b token v s₀.world.contract h) +
        feesCharged b v token h + owed b v token h s ∧
    (s.store.vault.queue b = [] → stakesOf v token (s₀.store.records b) - stakesOf v token (s.store.records b) =
      transferred b token s₀.world.contract v h) := by
  have hi := balanced_run hactive hv token hrun hok
  have hstakes := hi.stakes
  have hfees := hi.fees
  have howed : owed b v token h s = taken b v token h := by
    unfold owed
    split
    case isTrue => rfl
    case isFalse hnone => exact (not_not.1 fun hsome => hnone (hi.waits hsome)).symm
  refine ⟨by omega, fun hempty => ?_⟩
  have hnothing : owed b v token h s = 0 := by
    refine if_neg ?_
    rintro ⟨q, hq, -⟩
    rw [hempty] at hq
    cases hq
  omega

/-! ### Two withdrawals from the pool loan -/

/-- The state after the queue of `b` is processed; if that fails, nothing changes. -/
def State.afterQueue (s : State) (b : Address) : State :=
  match s.processed b with
  | some t => { s with store := t }
  | none => s

theorem QueueStep.afterQueue (s : State) (b : Address) : QueueStep b s .process (s.afterQueue b) := by
  unfold State.afterQueue
  cases hp : s.processed b with
  | some t => exact .process hp
  | none => exact .trap hp

/-- A call that works on the vouches for `b`, and then the queue is processed. -/
theorem run_callThenProcess {b : Address} {c : Call} (s : State) (hop : c.op.QueuesFor b) :
    Run (QueueStep b) s [(s.after c, .process), (s, .act (.call c))] ((s.after c).afterQueue b) :=
  ((Run.nil).snoc (.act (Step.after s c) hop)).snoc (.afterQueue _ b)

/-- Account 2 requests its withdrawal, for a fee: it is paid its whole stake. -/
theorem no_stake_lost_requested :
    let s₀ := start.play poolLoan
    let c : Call := ⟨[2], .requestWithdrawal 2 10 1000⟩
    let h := [(s₀.after c, QueueMove.process), (s₀, .act (.call c))]
    let s := (s₀.after c).afterQueue 10
    stakesOf 2 100 (s₀.store.records 10) - stakesOf 2 100 (s.store.records 10) = 1000000 ∧
      feesCharged 10 2 100 h = 1000 ∧
      stakesOf 2 100 (s₀.store.records 10) - stakesOf 2 100 (s.store.records 10) =
        (transferred 10 100 0 2 h - transferred 10 100 2 0 h) + feesCharged 10 2 100 h + owed 10 2 100 h s := by
  intro s₀ c h s
  have hremoved : stakesOf 2 100 (s₀.store.records 10) - stakesOf 2 100 (s.store.records 10) = 1000000 := by
    decide +kernel
  have hcharged : feesCharged 10 2 100 h = 1000 := by decide +kernel
  have hactive : s₀.store.book.hasActiveLoan 10 = true := by decide +kernel
  have hv : 2 ≠ s₀.world.contract := by decide +kernel
  have hfull : PaysInFull 10 2 100 [(s₀, .act (.call c))] (s₀.after c) :=
    ⟨by decide +kernel, by decide +kernel, by decide +kernel⟩
  have hok : Throughout (WhenProcessed 10 2 100) h :=
    ⟨⟨trivial, fun hm => by cases hm⟩, fun _ _ => hfull⟩
  exact ⟨hremoved, hcharged, (no_stake_lost hactive hv 100 (run_callThenProcess (c := c) s₀ rfl) hok).1⟩

/-- Account 2 withdraws instead: its stake leaves the record, the processing goes
through with enough balance, and pays it nothing. -/
theorem withdrawn_stake_lost :
    let s₀ := start.play poolLoan
    ∃ h s, Reachable s₀ ∧ s₀.store.book.hasActiveLoan 10 = true ∧ Run (QueueStep 10) s₀ h s ∧
      s.store.vault.queue 10 = [] ∧ 1000000 ≤ s.store.bank.balance 100 s.world.contract ∧
      stakesOf 2 100 (s₀.store.records 10) - stakesOf 2 100 (s.store.records 10) = 1000000 ∧
      transferred 10 100 s₀.world.contract 2 h = 0 ∧
      (transferred 10 100 s₀.world.contract 2 h - transferred 10 100 2 s₀.world.contract h) + feesCharged 10 2 100 h +
        owed 10 2 100 h s = 0 := by
  intro s₀
  exact ⟨_, _, Reachable.script sampleWorld sampleBank poolLoan, by decide +kernel,
    run_callThenProcess (c := ⟨[2], .withdrawVouch 2 10⟩)
      s₀ rfl, by decide +kernel, by decide +kernel, by decide +kernel,
    by decide +kernel, by decide +kernel⟩

end QuorumCredit
