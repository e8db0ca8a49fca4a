import QuorumCredit.LoanPriority
import QuorumCredit.Guards
import QuorumCredit.Host.Batch
/-!
# What a waterfall pays

The queue of a pool is in the order of the tranches, whatever priority changes it
has been through, and its entries are those it was created with. A run over it is
fair exactly if no entry is owed a negative amount: creation does not look at the
amounts. The clean-up after a run removes the entry of the former bare key, so the
queue of the pool stays: a second run is refused only for want of approval or of money.
-/

open Host Function Waterfall

namespace QuorumCredit

/-! ## The order of the tranches -/

def InTranches (entries : List PriorityLoanEntry) : Prop :=
  entries.Pairwise fun e e' => e.priority.rank ≤ e'.priority.rank

theorem insertByPriority_perm (entry : PriorityLoanEntry) (sorted : List PriorityLoanEntry) :
    (insertByPriority entry sorted).Perm (entry :: sorted) :=
  List.perm_orderedInsert ..

theorem insertByPriority_inTranches (entry : PriorityLoanEntry) {sorted : List PriorityLoanEntry}
    (h : InTranches sorted) : InTranches (insertByPriority entry sorted) := by
  induction sorted with
  | nil => exact List.pairwise_singleton _ _
  | cons e sorted ih =>
    obtain ⟨hfirst, hrest⟩ := List.pairwise_cons.1 h
    rw [insertByPriority, List.orderedInsert_cons]
    split
    case isTrue hlt =>
      refine List.pairwise_cons.2 ⟨fun e' he' => ?_, h⟩
      rcases List.mem_cons.1 he' with rfl | he'
      · exact Nat.le_of_lt hlt
      · exact Nat.le_trans (Nat.le_of_lt hlt) (hfirst e' he')
    case isFalse hge =>
      refine List.pairwise_cons.2 ⟨fun e' he' => ?_, ih hrest⟩
      rcases List.mem_cons.1 ((insertByPriority_perm entry sorted).subset he') with rfl | he'
      · exact Nat.not_lt.1 hge
      · exact hfirst e' he'

theorem foldl_insertByPriority (entries : List PriorityLoanEntry) {sorted : List PriorityLoanEntry}
    (h : InTranches sorted) :
    InTranches (entries.foldl (fun sorted entry => insertByPriority entry sorted) sorted) ∧
      (entries.foldl (fun sorted entry => insertByPriority entry sorted) sorted).Perm (entries ++ sorted) := by
  induction entries generalizing sorted with
  | nil => exact ⟨h, .refl _⟩
  | cons entry entries ih =>
    obtain ⟨horder, hperm⟩ := ih (insertByPriority_inTranches entry h)
    refine ⟨horder, hperm.trans ?_⟩
    exact ((insertByPriority_perm entry sorted).append_left entries).trans List.perm_middle

theorem sortByPriority_inTranches (entries : List PriorityLoanEntry) : InTranches (sortByPriority entries) :=
  (foldl_insertByPriority entries List.Pairwise.nil).1

theorem sortByPriority_perm (entries : List PriorityLoanEntry) : (sortByPriority entries).Perm entries := by
  have h := (foldl_insertByPriority entries List.Pairwise.nil).2
  rwa [List.append_nil] at h

/-- An entry without its tranche, which a priority change may replace. -/
def PriorityLoanEntry.untagged (e : PriorityLoanEntry) : Nat × Address × Int := (e.loanId, e.borrower, e.amount)

theorem untagged_retag (proposal : PriorityChangeProposal) (e : PriorityLoanEntry) :
    (proposal.retag e).untagged = e.untagged := by
  unfold PriorityChangeProposal.retag
  split
  · rfl
  · rfl

/-! ## When a run goes through -/

/-- What an entry is paid, in its loan's token. -/
def trancheFlow (book : LoanBook) (contract : Address) (p : PriorityLoanEntry × Int) :
    List (Transfer Address Address) :=
  if 0 < p.2 then
    match book.loan p.1.loanId with
    | some loan => [{ token := loan.tokenAddress, src := contract, dst := p.1.borrower, amount := p.2 }]
    | none => []
  else []

def trancheFlows (book : LoanBook) (contract : Address) (shares : List (PriorityLoanEntry × Int)) :
    List (Transfer Address Address) :=
  shares.flatMap (trancheFlow book contract)

theorem trancheFlows_cons (book : LoanBook) (contract : Address) (p : PriorityLoanEntry × Int)
    (shares : List (PriorityLoanEntry × Int)) :
    trancheFlows book contract (p :: shares) = trancheFlow book contract p ++ trancheFlows book contract shares :=
  List.flatMap_cons

def distributionLine (p : PriorityLoanEntry × Int) : WaterfallDistributionEntry :=
  { loanId := p.1.loanId, borrower := p.1.borrower, priority := p.1.priority, owed := p.1.amount, paid := p.2 }

/-- Every entry with a share has a loan. -/
def HaveLoans (book : LoanBook) (shares : List (PriorityLoanEntry × Int)) : Prop :=
  ∀ p ∈ shares, 0 < p.2 → ∃ loan, book.loan p.1.loanId = some loan

theorem goes_payEntry (e : PriorityLoanEntry) {paid : Int} (hpos : 0 < paid) (ctx : Context) (s : PriorityStore)
    (Q : Unit → PriorityStore → Prop) :
    Goes (payEntry e paid) ctx s Q ↔
      (∃ loan, s.book.loan e.loanId = some loan) ∧ s.bank.Covers (trancheFlow s.book ctx.contract (e, paid)) ∧
        Q () { s with bank := s.bank.moves (trancheFlow s.book ctx.contract (e, paid)) } := by
  simp only [payEntry, goes_bind, goes_look, goes_orFail, trancheFlow, if_pos hpos]
  cases s.book.loan e.loanId with
  | none => simp
  | some loan =>
    simp only [pay, yields_parts, goes_zoom, goes_bind, goes_ask, Bank.goes_transfer, Option.some.injEq,
      exists_eq_left', exists_eq', true_and, Bank.Covers, and_true, Bank.moves]
    rfl

theorem goes_routeEntries (es : List PriorityLoanEntry) (remaining distributed : Int)
    (lines : List WaterfallDistributionEntry) (ctx : Context) (s : PriorityStore)
    (Q : Int × List WaterfallDistributionEntry → PriorityStore → Prop) :
    Goes (routeEntries es remaining distributed lines) ctx s Q ↔
      ((SumFits remaining ((pour (·.amount) remaining es).map (- ·.2)) ∧
        SumFits distributed ((pour (·.amount) remaining es).map (·.2))) ∧
        HaveLoans s.book (pour (·.amount) remaining es) ∧
        s.bank.Covers (trancheFlows s.book ctx.contract (pour (·.amount) remaining es))) ∧
      Q (distributed + taken (·.amount) remaining es, lines ++ (pour (·.amount) remaining es).map distributionLine)
        { s with bank := s.bank.moves (trancheFlows s.book ctx.contract (pour (·.amount) remaining es)) } := by
  induction es generalizing remaining distributed lines s with
  | nil => simp [routeEntries, pour, SumFits, HaveLoans, trancheFlows, taken]
  | cons e es ih =>
    simp only [routeEntries, goes_bind, goes_i128, pour, List.map_cons, SumFits, trancheFlows_cons, Bank.covers_append,
      Bank.moves_append, taken_cons, HaveLoans, List.forall_mem_cons, ← sub_eq_add_neg]
    by_cases hpos : 0 < share remaining e.amount
    · rw [if_pos hpos, goes_bind, goes_payEntry e hpos]
      simp only [ih, HaveLoans, hpos, forall_true_left, List.append_assoc, List.singleton_append, distributionLine,
        Int.add_assoc]
      constructor
      · rintro ⟨hleft, hsum, hloan, hcovered, ⟨⟨hlefts, hsums⟩, hloans, hcovers⟩, hq⟩
        exact ⟨⟨⟨⟨hleft, hlefts⟩, hsum, hsums⟩, ⟨hloan, hloans⟩, hcovered, hcovers⟩, hq⟩
      · rintro ⟨⟨⟨⟨hleft, hlefts⟩, hsum, hsums⟩, ⟨hloan, hloans⟩, hcovered, hcovers⟩, hq⟩
        exact ⟨hleft, hsum, hloan, hcovered, ⟨⟨hlefts, hsums⟩, hloans, hcovers⟩, hq⟩
    · have hnone : trancheFlow s.book ctx.contract (e, share remaining e.amount) = [] := if_neg hpos
      rw [if_neg hpos]
      simp only [ih, HaveLoans, hpos, hnone, false_imp_iff, true_and, Bank.covers_nil, Bank.moves_nil,
        List.append_assoc, List.singleton_append, distributionLine, Int.add_assoc]
      constructor
      · rintro ⟨hleft, hsum, ⟨⟨hlefts, hsums⟩, hrest⟩, hq⟩
        exact ⟨⟨⟨⟨hleft, hlefts⟩, hsum, hsums⟩, hrest⟩, hq⟩
      · rintro ⟨⟨⟨⟨hleft, hlefts⟩, hsum, hsums⟩, hrest⟩, hq⟩
        exact ⟨hleft, hsum, ⟨⟨hlefts, hsums⟩, hrest⟩, hq⟩

/-! ## The call -/

/-- The queue can be paid from the proceeds: no amount overflows, each entry that
gets something has a loan, the contract holds what is paid, and there is a number
left for the run. -/
structure PriorityStore.Routable (s : PriorityStore) (contract : Address) (total : Int)
    (entries : List PriorityLoanEntry) : Prop where
  left : SumFits total ((pour (·.amount) total entries).map (- ·.2))
  distributed : SumFits 0 ((pour (·.amount) total entries).map (·.2))
  shortfall : FitsI128 (total - taken (·.amount) total entries)
  loans : HaveLoans s.book (pour (·.amount) total entries)
  covered : s.bank.Covers (trancheFlows s.book contract (pour (·.amount) total entries))
  counter : s.priorities.waterfallRunCounter < u64Max

/-- The run that is recorded. -/
def PriorityStore.runOf (s : PriorityStore) (now poolId : Nat) (total : Int) (entries : List PriorityLoanEntry) :
    WaterfallRun :=
  { runId := s.priorities.waterfallRunCounter + 1, poolId, totalProceeds := total
    distributed := taken (·.amount) total entries, shortfall := total - taken (·.amount) total entries
    timestamp := now, entries := (pour (·.amount) total entries).map distributionLine }

/-- The storage after it. -/
def PriorityStore.routed (s : PriorityStore) (ctx : Context) (poolId : Nat) (total : Int)
    (entries : List PriorityLoanEntry) : PriorityStore :=
  { s with
    bank := s.bank.moves (trancheFlows s.book ctx.contract (pour (·.amount) total entries))
    priorities.waterfallRunCounter := s.priorities.waterfallRunCounter + 1
    priorities.waterfallRun := update s.priorities.waterfallRun (s.priorities.waterfallRunCounter + 1)
      (some (s.runOf ctx.now poolId total entries))
    priorities.formerQueue := none }

theorem goes_routeDefaultProceeds (adminSigners : List Address) (poolId : Nat) (total : Int) (ctx : Context)
    (s : PriorityStore) (Q : WaterfallRun → PriorityStore → Prop) :
    Goes (routeDefaultProceeds adminSigners poolId total) ctx s Q ↔
      ctx.Approves adminSigners ∧ 0 ≤ total ∧ ∃ queue, s.priorities.queue poolId = some queue ∧
        s.Routable ctx.contract total queue.entries ∧
        Q (s.runOf ctx.now poolId total queue.entries) (s.routed ctx poolId total queue.entries) := by
  simp only [routeDefaultProceeds, goes_bind, goes_approved, goes_require, goes_look, goes_orFail, goes_routeEntries,
    goes_i128, goes_ask, goes_alter, goes_pure]
  refine and_congr_right fun _ => and_congr_right fun _ => exists_congr fun queue => and_congr_right fun _ => ?_
  rw [zero_add, List.nil_append]
  constructor
  · rintro ⟨⟨⟨hleft, hsum⟩, hloans, hcovers⟩, hcounter, hshort, hq⟩
    exact ⟨⟨hleft, hsum, hshort, hloans, hcovers, hcounter⟩, hq⟩
  · rintro ⟨hr, hq⟩
    exact ⟨⟨⟨hr.left, hr.distributed⟩, hr.loans, hr.covered⟩, hr.counter, hr.shortfall, hq⟩

variable {s : Situated World PriorityStore} {signers adminSigners : List Address}

theorem exec_route_iff {poolId : Nat} {total : Int} {t : PriorityStore} :
    loanPriorities.exec s signers (.routeDefaultProceeds adminSigners poolId total) = some t ↔
      Context.Approves { s.world with signers } adminSigners ∧ 0 ≤ total ∧
        ∃ queue, s.store.priorities.queue poolId = some queue ∧
          s.store.Routable s.world.contract total queue.entries ∧
          s.store.routed { s.world with signers } poolId total queue.entries = t := by
  rw [Component.exec_eq_some_iff]
  simp only [loanPriorities, PriorityOp.run, discard, goes_bind, goes_pure, goes_routeDefaultProceeds]

/-! ## The entries of a queue -/

/-- The loans of the pool's last creation that went through. -/
def lastCreated (p : Nat) : PriorityHistory → Option (List PriorityLoanEntry)
  | [] => none
  | (s, e) :: h =>
    match loanPriorities.done s e with
    | some (.createLoanPriorityQueue _ poolId loans, _) => if poolId = p then some loans else lastCreated p h
    | _ => lastCreated p h

/-- The approvals with the approver's among them. -/
def PriorityChangeProposal.approvalsWith (proposal : PriorityChangeProposal) (approver : Address) : List Address :=
  if approver ∈ proposal.approvals then proposal.approvals else proposal.approvals ++ [approver]

/-- What a call that goes through makes of the entries queued for the pool: a creation
queues its own, and a priority change that passes retags them. A run is not looked at. -/
def queueing (s : Situated World PriorityStore) (p : Nat) (queued : Option (List PriorityLoanEntry)) :
    PriorityOp → Option (List PriorityLoanEntry)
  | .createLoanPriorityQueue _ poolId loans => if poolId = p then some (sortByPriority loans) else queued
  | .approvePriorityChange approver proposalId =>
    match s.store.priorities.proposal proposalId with
    | some proposal =>
      if proposal.poolId = p ∧ s.world.config.adminThreshold ≤ (proposal.approvalsWith approver).length then
        queued.map fun entries => sortByPriority (entries.map proposal.retag)
      else queued
    | none => queued
  | .routeDefaultProceeds .. | .proposePriorityChange .. => queued

/-- The entries the calls of the history have queued for the pool, paid or not. -/
def queuedFor (p : Nat) : PriorityHistory → Option (List PriorityLoanEntry)
  | [] => none
  | (s, e) :: h =>
    match loanPriorities.done s e with
    | some (op, _) => queueing s p (queuedFor p h) op
    | none => queuedFor p h

theorem entries_of_exec {op : PriorityOp} {t : PriorityStore} (he : loanPriorities.exec s signers op = some t)
    (p : Nat) : (t.priorities.queue p).map (·.entries) =
      queueing s p ((s.store.priorities.queue p).map (·.entries)) op := by
  cases op with
  | createLoanPriorityQueue adminSigners poolId loans =>
    refine Component.exec_yields (Q := fun t => (t.priorities.queue p).map (·.entries) = _) ?_ he
    simp only [loanPriorities, PriorityOp.run, createLoanPriorityQueue, yields_parts, yields_steps, yields_approved]
    intro _ _
    change (update s.store.priorities.queue poolId (some _) p).map (·.entries) = _
    rw [queueing, update_apply]
    by_cases hp : p = poolId
    · rw [if_pos hp, if_pos hp.symm, Option.map_some]
    · rw [if_neg hp, if_neg (Ne.symm hp)]
  | routeDefaultProceeds adminSigners poolId total =>
    obtain ⟨-, -, queue, -, -, rfl⟩ := exec_route_iff.1 he
    rfl
  | proposePriorityChange proposer poolId loanId newPriority =>
    refine Component.exec_yields (Q := fun t => (t.priorities.queue p).map (·.entries) = _) ?_ he
    simp only [loanPriorities, PriorityOp.run, proposePriorityChange, discard, yields_parts, yields_steps,
      yields_requireAuth]
    exact fun _ _ _ => rfl
  | approvePriorityChange approver proposalId =>
    refine Component.exec_yields (Q := fun t => (t.priorities.queue p).map (·.entries) = _) ?_ he
    simp only [loanPriorities, PriorityOp.run, approvePriorityChange, discard, yields_parts, yields_steps,
      yields_requireAuth, yields_ite]
    intro _ _ proposal hproposal _
    have hproposal : s.store.priorities.proposal proposalId = some proposal := hproposal
    simp only [queueing, hproposal]
    refine ⟨fun hmet queue hqueue => ?_, fun hshort => ?_⟩
    · have hqueue : s.store.priorities.queue proposal.poolId = some queue := hqueue
      change (update s.store.priorities.queue proposal.poolId (some _) p).map (·.entries) = _
      rw [update_apply]
      by_cases hp : p = proposal.poolId
      · have hpasses : proposal.poolId = p ∧ s.world.config.adminThreshold ≤ (proposal.approvalsWith approver).length :=
          ⟨hp.symm, hmet⟩
        rw [if_pos hp, if_pos hpasses, hp, hqueue]
        rfl
      · rw [if_neg hp, if_neg fun h => hp h.1.symm]
    · have hpending : ¬ (proposal.poolId = p ∧
          s.world.config.adminThreshold ≤ (proposal.approvalsWith approver).length) := fun h => hshort h.2
      rw [if_neg hpending]
      rfl

theorem entries_of_run {world : World} {book : LoanBook} {bank : Ledger} {h : PriorityHistory}
    (hr : Run loanPriorities.Step (priorityStart world book bank) h s) (p : Nat) :
    (s.store.priorities.queue p).map (·.entries) = queuedFor p h := by
  refine Component.inv (I := fun h s => (s.store.priorities.queue p).map (·.entries) = queuedFor p h) rfl ?_ ?_ hr
  · intro h s signers op t _ hi he
    rw [entries_of_exec he, hi, queuedFor, Component.done_call he]
  · intro h s e s' hi hnone hsame
    have hstore : s'.store.priorities = s.store.priorities := by
      rcases hsame with rfl | ⟨-, -, hsame⟩
      · rfl
      · exact hsame
    rw [hstore, hi]
    simp only [queuedFor, hnone]

/-- The loans queued, in the order of the tranches they have by now. -/
structure QueueOf (entries loans : List PriorityLoanEntry) : Prop where
  inTranches : InTranches entries
  entries : (entries.map PriorityLoanEntry.untagged).Perm (loans.map PriorityLoanEntry.untagged)

theorem QueueOf.of_sorted {entries loans : List PriorityLoanEntry}
    (h : (entries.map PriorityLoanEntry.untagged).Perm (loans.map PriorityLoanEntry.untagged)) :
    QueueOf (sortByPriority entries) loans :=
  ⟨sortByPriority_inTranches entries, ((sortByPriority_perm entries).map _).trans h⟩

theorem QueueOf.retag {entries loans : List PriorityLoanEntry} (h : QueueOf entries loans)
    (proposal : PriorityChangeProposal) : QueueOf (sortByPriority (entries.map proposal.retag)) loans := by
  refine .of_sorted ?_
  rw [List.map_map, show PriorityLoanEntry.untagged ∘ proposal.retag = PriorityLoanEntry.untagged from
    funext (untagged_retag proposal)]
  exact h.entries

/-- What is queued for a pool is what its last creation queued. -/
theorem queueOf_lastCreated {p : Nat} {h : PriorityHistory} {entries : List PriorityLoanEntry}
    (hq : queuedFor p h = some entries) : ∃ loans, lastCreated p h = some loans ∧ QueueOf entries loans := by
  induction h generalizing entries with
  | nil => cases hq
  | cons x h ih =>
    obtain ⟨s, e⟩ := x
    rw [queuedFor] at hq
    rw [lastCreated]
    cases hd : loanPriorities.done s e with
    | none =>
      rw [hd] at hq
      exact ih hq
    | some d =>
      obtain ⟨op, t⟩ := d
      rw [hd] at hq
      cases op with
      | createLoanPriorityQueue _ poolId loans =>
        simp only [queueing] at hq ⊢
        by_cases hp : poolId = p
        · rw [if_pos hp] at hq ⊢
          cases hq
          exact ⟨loans, rfl, .of_sorted (.refl _)⟩
        · rw [if_neg hp] at hq ⊢
          exact ih hq
      | routeDefaultProceeds | proposePriorityChange => exact ih hq
      | approvePriorityChange approver proposalId =>
        simp only [queueing] at hq
        split at hq
        case h_1 proposal _ =>
          split at hq
          case isTrue =>
            obtain ⟨before, hbefore, rfl⟩ := Option.map_eq_some_iff.1 hq
            obtain ⟨loans, hloans, hqueues⟩ := ih hbefore
            exact ⟨loans, hloans, hqueues.retag proposal⟩
          case isFalse => exact ih hq
        case h_2 => exact ih hq

/-! ## A fair run -/

/-- No more is paid than there is, each entry gets no less than nothing and no more
than it is owed, a later tranche gets something only when the earlier ones are paid
in full, and nothing is left over before all are. -/
structure WaterfallRun.Fair (run : WaterfallRun) : Prop where
  total : (run.entries.map (·.paid)).sum ≤ run.totalProceeds
  bounds : ∀ e ∈ run.entries, 0 ≤ e.paid ∧ e.paid ≤ e.owed
  senior : ∀ e ∈ run.entries, 0 < e.paid → ∀ e' ∈ run.entries, e'.priority.rank < e.priority.rank → e'.paid = e'.owed
  exhausts : (run.entries.map (·.paid)).sum < run.totalProceeds → ∀ e ∈ run.entries, e.paid = e.owed

theorem runOf_paid (s : PriorityStore) (now p : Nat) (total : Int) (entries : List PriorityLoanEntry) :
    ((s.runOf now p total entries).entries.map (·.paid)).sum = taken (·.amount) total entries := by
  simp [PriorityStore.runOf, taken, distributionLine, Function.comp_def]

theorem runOf_fair_iff {s : PriorityStore} {now p : Nat} {total : Int} (htotal : 0 ≤ total)
    {entries : List PriorityLoanEntry} (horder : InTranches entries) :
    (s.runOf now p total entries).Fair ↔ ∀ e ∈ entries, 0 ≤ e.amount := by
  have hlines : ∀ {P : WaterfallDistributionEntry → Prop},
      (∀ e ∈ (s.runOf now p total entries).entries, P e) ↔
        ∀ x ∈ pour (·.amount) total entries, P (distributionLine x) := fun {P} => List.forall_mem_map
  constructor
  · intro hfair e he
    by_contra hneg
    have hline := hlines.1 hfair.bounds (e, e.amount) (filled_of_negative htotal he (Int.not_le.1 hneg))
    exact hneg hline.1
  · intro hn
    refine ⟨?_, hlines.2 (pour_bounds hn htotal), ?_, ?_⟩
    · rw [runOf_paid]
      exact taken_le htotal entries
    · refine hlines.2 fun y hy hpos => hlines.2 fun x hx hlt => ?_
      exact pour_ranked hn htotal horder x hx y hy hlt hpos
    · rw [runOf_paid]
      intro hlt
      exact hlines.2 (filled_of_taken_lt hn htotal hlt)

section

variable {world : World} {book : LoanBook} {bank : Ledger} {h : PriorityHistory} {s : Situated World PriorityStore}

/-- The run recorded by a call that goes through pays the entries the pool's queue
was created with, and is fair exactly if none of them is owed a negative amount. -/
theorem waterfall_fair_iff (hr : Run loanPriorities.Step (priorityStart world book bank) h s)
    {signers adminSigners : List Address} {p : Nat} {total : Int} {t : PriorityStore}
    (he : loanPriorities.exec s signers (.routeDefaultProceeds adminSigners p total) = some t) :
    ∃ loans run, lastCreated p h = some loans ∧
      t.priorities.waterfallRun t.priorities.waterfallRunCounter = some run ∧
      (run.poolId = p ∧ run.totalProceeds = total ∧
        (run.entries.map fun e => (e.loanId, e.borrower, e.owed)).Perm (loans.map PriorityLoanEntry.untagged)) ∧
      (run.Fair ↔ ∀ e ∈ loans, 0 ≤ e.amount) := by
  obtain ⟨-, htotal, queue, hqueue, -, rfl⟩ := exec_route_iff.1 he
  have hentries : queuedFor p h = some queue.entries := by rw [← entries_of_run hr, hqueue, Option.map_some]
  obtain ⟨loans, hloans, hqueues⟩ := queueOf_lastCreated hentries
  refine ⟨loans, s.store.runOf s.world.now p total queue.entries, hloans, update_self .., ⟨rfl, rfl, ?_⟩, ?_⟩
  · refine .trans (.of_eq ?_) hqueues.entries
    have hfst := map_fst_pour (fun e : PriorityLoanEntry => e.amount) total queue.entries
    conv_rhs => rw [← hfst, List.map_map]
    rw [PriorityStore.runOf, List.map_map]
    rfl
  · rw [runOf_fair_iff htotal hqueues.inTranches]
    have hamounts : ∀ es : List PriorityLoanEntry, (∀ u ∈ es.map PriorityLoanEntry.untagged, 0 ≤ u.2.2) ↔
        ∀ e ∈ es, 0 ≤ e.amount := fun es => List.forall_mem_map
    rw [← hamounts, ← hamounts]
    exact forall_congr' fun u => imp_congr_left hqueues.entries.mem_iff

end

/-- The book of account 10's pool loan, which is loan 1. -/
def loanOfTen : LoanBook := (start.play poolLoan).store.book

/-- A queue of two tranches for that loan. -/
def twoTranches (senior junior : Int) : List PriorityLoanEntry :=
  [⟨1, 11, .junior, junior⟩, ⟨1, 10, .senior, senior⟩]

theorem waterfall_fair_two_tranches :
    ∃ run : WaterfallRun, run.Fair ∧ run.entries = [⟨1, 10, .senior, 100, 100⟩, ⟨1, 11, .junior, 50, 20⟩] := by
  let created := loanPriorities.play (priorityStart sampleWorld loanOfTen sampleBank)
    [([1], .createLoanPriorityQueue [1] 7 (twoTranches 100 50))]
  have hr : Run loanPriorities.Step _ _ created := loanPriorities.run_play .nil
    [([1], .createLoanPriorityQueue [1] 7 (twoTranches 100 50))]
  have hexec : (loanPriorities.exec created [1] (.routeDefaultProceeds [1] 7 120)).isSome := by decide +kernel
  obtain ⟨loans, run, hloans, hrun, -, hiff⟩ := waterfall_fair_iff hr (Component.exec_of_isSome hexec)
  refine ⟨run, hiff.2 ?_, ?_⟩
  · have hlast : lastCreated 7 (loanPriorities.trace (priorityStart sampleWorld loanOfTen sampleBank) []
        [([1], .createLoanPriorityQueue [1] 7 (twoTranches 100 50))]) = some (twoTranches 100 50) := by
      decide +kernel
    cases hloans.symm.trans hlast
    decide
  · have hentries : ((loanPriorities.after created [1] (.routeDefaultProceeds [1] 7 120)).store.priorities.waterfallRun
        1).map (·.entries) = some [⟨1, 10, .senior, 100, 100⟩, ⟨1, 11, .junior, 50, 20⟩] := by decide +kernel
    have hcounter : (loanPriorities.after created [1]
        (.routeDefaultProceeds [1] 7 120)).store.priorities.waterfallRunCounter = 1 := by decide +kernel
    rw [hcounter] at hrun
    rw [hrun] at hentries
    exact Option.some.inj hentries

/-- A negative amount in the senior tranche pays the junior one from nothing. -/
theorem waterfall_unfair :
    ¬ ∀ world book bank h s signers adminSigners p total t,
      Run loanPriorities.Step (priorityStart world book bank) h s →
        loanPriorities.exec s signers (.routeDefaultProceeds adminSigners p total) = some t →
          ∃ run, t.priorities.waterfallRun t.priorities.waterfallRunCounter = some run ∧ run.Fair := by
  intro hclaim
  let created := loanPriorities.play (priorityStart sampleWorld loanOfTen sampleBank)
    [([1], .createLoanPriorityQueue [1] 7 (twoTranches (-100) 50))]
  have hr : Run loanPriorities.Step _ _ created := loanPriorities.run_play .nil
    [([1], .createLoanPriorityQueue [1] 7 (twoTranches (-100) 50))]
  have hexec : (loanPriorities.exec created [1] (.routeDefaultProceeds [1] 7 0)).isSome := by decide +kernel
  obtain ⟨run, hrun, hfair⟩ := hclaim _ _ _ _ _ _ _ 7 0 _ hr (Component.exec_of_isSome hexec)
  have hentries : ((loanPriorities.after created [1] (.routeDefaultProceeds [1] 7 0)).store.priorities.waterfallRun
      1).map (·.entries) = some [⟨1, 10, .senior, -100, -100⟩, ⟨1, 11, .junior, 50, 50⟩] := by decide +kernel
  have hcounter : (loanPriorities.after created [1]
      (.routeDefaultProceeds [1] 7 0)).store.priorities.waterfallRunCounter = 1 := by decide +kernel
  rw [hcounter] at hrun
  rw [hrun] at hentries
  have hbounds := hfair.bounds
  rw [show run.entries = _ from Option.some.inj hentries] at hbounds
  exact absurd (hbounds _ List.mem_cons_self).1 (by decide)

/-! ## One run a queue -/

/-- How often proceeds were routed through the pool's queue since its last creation. -/
def routesSince (p : Nat) : PriorityHistory → Nat
  | [] => 0
  | (s, e) :: h =>
    match loanPriorities.done s e with
    | some (.createLoanPriorityQueue _ poolId _, _) => if poolId = p then 0 else routesSince p h
    | some (.routeDefaultProceeds _ poolId _, _) => if poolId = p then routesSince p h + 1 else routesSince p h
    | _ => routesSince p h

/-- Routing through the queue of one pool leaves those of the others. -/
def SparesOthers (s : Situated World PriorityStore) : Event World (List Address) PriorityStore PriorityOp → Prop
  | .call signers (.routeDefaultProceeds adminSigners p total) =>
    ∀ q, q ≠ p → (loanPriorities.after s signers
      (.routeDefaultProceeds adminSigners p total)).store.priorities.queue q =
      s.store.priorities.queue q
  | _ => True

/-- Where a call routes proceeds through a pool paid since its last creation, the
administration does not approve, the total is negative, or the entries queued by then
could not be paid from it. Whether they are still stored is not asked. -/
def NotAgain (h : PriorityHistory) (s : Situated World PriorityStore) :
    Event World (List Address) PriorityStore PriorityOp → Prop
  | .call signers (.routeDefaultProceeds adminSigners p total) =>
    0 < routesSince p h → ∀ entries, queuedFor p h = some entries →
      ¬ (Context.Approves { s.world with signers } adminSigners ∧ 0 ≤ total ∧
        s.store.Routable s.world.contract total entries)
  | _ => True

theorem sparesOthers (s : Situated World PriorityStore) (e : Event World (List Address) PriorityStore PriorityOp) :
    SparesOthers s e := by
  cases e with
  | elsewhere => trivial
  | call signers op =>
    cases op with
    | routeDefaultProceeds adminSigners p total =>
      intro q _
      cases he : loanPriorities.exec s signers (.routeDefaultProceeds adminSigners p total) with
      | none => simp [Component.after, he]
      | some t =>
        obtain ⟨-, -, queue, -, -, rfl⟩ := exec_route_iff.1 he
        simp [Component.after, he, PriorityStore.routed]
    | createLoanPriorityQueue => trivial
    | proposePriorityChange => trivial
    | approvePriorityChange => trivial

/-- Each pool's queue was paid at most once since its last creation. -/
def OnceEach (h : PriorityHistory) : Prop := ∀ p, routesSince p h ≤ 1

theorem onceEach_call {h : PriorityHistory} {op : PriorityOp} (hp : OnceEach h)
    (hqueued : ∀ p, (s.store.priorities.queue p).map (·.entries) = queuedFor p h) :
    OnceEach ((s, .call signers op) :: h) ↔ NotAgain h s (.call signers op) := by
  cases he : loanPriorities.exec s signers op with
  | none =>
    have hsame : ∀ p, routesSince p ((s, .call signers op) :: h) = routesSince p h := by
      intro p
      simp [routesSince, Component.done, he]
    refine iff_of_true (fun p => hsame p ▸ hp p) ?_
    cases op with
    | routeDefaultProceeds adminSigners p total =>
      -- the entries are those of the stored queue, which a run leaves where it is
      rintro _ entries hentries ⟨happroved, htotal, hroutable⟩
      rw [← hqueued, Option.map_eq_some_iff] at hentries
      obtain ⟨queue, hqueue, rfl⟩ := hentries
      cases he.symm.trans (exec_route_iff.2 ⟨happroved, htotal, queue, hqueue, hroutable, rfl⟩)
    | createLoanPriorityQueue => trivial
    | proposePriorityChange => trivial
    | approvePriorityChange => trivial
  | some t =>
    have hdone := Component.done_call he
    cases op with
    | createLoanPriorityQueue adminSigners poolId loans =>
      refine iff_of_true (fun p => ?_) trivial
      have hbefore := hp p
      simp only [routesSince, hdone]
      split
      · omega
      · exact hbefore
    | routeDefaultProceeds adminSigners poolId total =>
      obtain ⟨happroved, htotal, queue, hqueue, hroutable, -⟩ := exec_route_iff.1 he
      have hentries : queuedFor poolId h = some queue.entries := by rw [← hqueued, hqueue, Option.map_some]
      have hcount : ∀ p, routesSince p ((s, .call signers (.routeDefaultProceeds adminSigners poolId total)) :: h) =
          if poolId = p then routesSince p h + 1 else routesSince p h := by
        intro p
        simp only [routesSince, hdone]
      constructor
      · intro honce hagain
        have hpool := honce poolId
        rw [hcount, if_pos rfl] at hpool
        omega
      · intro hnot p
        have hbefore := hp p
        rw [hcount]
        split
        case isTrue heq =>
          subst heq
          by_contra hmore
          exact hnot (by omega) queue.entries hentries ⟨happroved, htotal, hroutable⟩
        case isFalse => exact hbefore
    | proposePriorityChange => exact iff_of_true (fun p => by simpa only [routesSince, hdone] using hp p) trivial
    | approvePriorityChange => exact iff_of_true (fun p => by simpa only [routesSince, hdone] using hp p) trivial

section

variable {world : World} {book : LoanBook} {bank : Ledger} {h : PriorityHistory} {s : Situated World PriorityStore}

/-- Each queue is paid at most once, and no run takes another pool's queue away, exactly
if no further call for a pool that was paid has the approvals and could pay what is queued. -/
theorem paid_once_iff (hr : Run loanPriorities.Step (priorityStart world book bank) h s) :
    Always (fun h _ => OnceEach h) h s ∧ Along SparesOthers h ↔ Throughout NotAgain h := by
  rw [Run.always_iff NotAgain (fun h _ => OnceEach h) (fun _ => Nat.zero_le 1) ?_ hr]
  · exact and_iff_left fun e _ => sparesOthers e.1 e.2
  · intro h s e s' hrun hp _
    cases e with
    | call signers op => exact onceEach_call hp (entries_of_run hrun)
    | elsewhere => exact iff_of_true (fun p => hp p) trivial

end

/-- Two pools, one paid; the second call for it has no approval. -/
def paidOnce : List (List Address × PriorityOp) :=
  [([1], .createLoanPriorityQueue [1] 7 (twoTranches 100 50)), ([1], .createLoanPriorityQueue [1] 8 (twoTranches 9 9)),
    ([1], .routeDefaultProceeds [1] 7 120), ([], .routeDefaultProceeds [1] 7 120)]

theorem paid_once_two_pools :
    routesSince 7 (loanPriorities.trace (priorityStart sampleWorld loanOfTen sampleBank) [] paidOnce) = 1 ∧
      Always (fun h _ => OnceEach h) (loanPriorities.trace (priorityStart sampleWorld loanOfTen sampleBank) [] paidOnce)
        (loanPriorities.play (priorityStart sampleWorld loanOfTen sampleBank) paidOnce) := by
  have hr := loanPriorities.run_play (.nil : Run _ (priorityStart sampleWorld loanOfTen sampleBank) [] _) paidOnce
  refine ⟨by decide +kernel, ((paid_once_iff hr).2 ⟨⟨⟨⟨trivial, trivial⟩, trivial⟩, ?_⟩, ?_⟩).1⟩
  · exact fun hagain => absurd hagain (by decide +kernel)
  · rintro - entries - ⟨⟨-, hsigned⟩, -⟩
    exact absurd (hsigned 1 List.mem_cons_self).2.2.1 (by decide)

/-- A queue is paid, and paid again. -/
theorem paid_twice :
    ¬ ∀ world book bank h s, Run loanPriorities.Step (priorityStart world book bank) h s →
      Always (fun h _ => OnceEach h) h s ∧ Along SparesOthers h := by
  intro hclaim
  have hr := loanPriorities.run_play (.nil : Run _ (priorityStart sampleWorld loanOfTen sampleBank) [] _)
    [([1], .createLoanPriorityQueue [1] 7 (twoTranches 100 50)), ([1], .routeDefaultProceeds [1] 7 120),
      ([1], .routeDefaultProceeds [1] 7 120)]
  have honce := (hclaim _ _ _ _ _ hr).1.last 7
  exact absurd honce (by decide +kernel)

end QuorumCredit
