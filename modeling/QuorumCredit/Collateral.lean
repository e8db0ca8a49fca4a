import QuorumCredit.Book
/-!
# The collateral bound

Each path that issues a loan has its own idea of the stake behind it:
`request_loan` counts the stakes in the loan's token with a reputation bonus,
`create_loan_pool` the stakes in every token, and `refinance_loan` checks no cap
at all. The bound is on the plain stakes in the loan's token, so it holds exactly
where the amount leaves room for what a path counts beyond them.
-/

open Host Function

namespace QuorumCredit

/-! ## Stakes -/

def inToken (token : Address) (vouches : List VouchRecord) : List VouchRecord :=
  vouches.filter fun v => v.token = token

/-- The stakes in one token, as they are recorded. -/
def plainStake (token : Address) (vouches : List VouchRecord) : Int := stakeSum (inToken token vouches)

/-- The stakes in other tokens. -/
def foreignStake (token : Address) (vouches : List VouchRecord) : Int :=
  stakeSum (vouches.filter fun v => ¬ v.token = token)

/-- A stake with its voucher's reputation weight. -/
def weighted (x : Vouching) (v : VouchRecord) : Int :=
  (v.stake * reputationWeight (x.statsOf v.voucher)).tdiv bpsDenominator

/-- The weighted stakes in one token. -/
def weightedTotal (x : Vouching) (token : Address) (vouches : List VouchRecord) : Int :=
  ((inToken token vouches).map (weighted x)).sum

/-- What the weights add to the stakes in one token. -/
def reputationExtra (x : Vouching) (token : Address) (vouches : List VouchRecord) : Int :=
  ((inToken token vouches).map fun v => weighted x v - v.stake).sum

theorem weightedTotal_eq (x : Vouching) (token : Address) (vouches : List VouchRecord) :
    weightedTotal x token vouches = plainStake token vouches + reputationExtra x token vouches := by
  unfold weightedTotal plainStake stakeSum reputationExtra
  induction inToken token vouches with
  | nil => rfl
  | cons v vs ih =>
    simp only [List.map_cons, List.sum_cons, ih]
    omega

theorem stakeSum_eq (token : Address) (vouches : List VouchRecord) :
    stakeSum vouches = plainStake token vouches + foreignStake token vouches := by
  unfold plainStake foreignStake inToken
  induction vouches with
  | nil => rfl
  | cons v vs ih =>
    simp only [stakeSum] at ih ⊢
    by_cases hv : v.token = token
    · simp only [List.filter_cons, hv, decide_true, if_true, not_true_eq_false, decide_false, Bool.false_eq_true,
        if_false, List.map_cons, List.sum_cons, ih]
      omega
    · simp only [List.filter_cons, hv, decide_true, if_true, not_false_eq_true, decide_false, Bool.false_eq_true,
        if_false, List.map_cons, List.sum_cons, ih]
      omega

/-! ## The loans a call issues -/

/-- A loan to be issued. -/
structure Issue where
  borrower : Address
  amount : Int
  token : Address
deriving DecidableEq, Repr

def LoanRecord.issue (loan : LoanRecord) : Issue := ⟨loan.borrower, loan.amount, loan.tokenAddress⟩

def Op.issues (w : World) : Op → List Issue
  | .requestLoan borrower amount _ _ token | .refinanceLoan borrower amount _ token => [⟨borrower, amount, token⟩]
  | .createLoanPool _ borrowers amounts => (borrowers.zip amounts).map fun e => ⟨e.1, e.2, w.config.token⟩
  | _ => []

/-- The records a call adds are those of the loans it issues, and none goes. -/
structure Adds (k : LoanBook) (issues : List Issue) (k' : LoanBook) : Prop where
  only : ∀ id loan, k.loan id = none → k'.loan id = some loan → loan.issue ∈ issues
  all : ∀ i ∈ issues, ∃ id loan, k.loan id = none ∧ k'.loan id = some loan ∧ loan.status = .active ∧ loan.issue = i
  kept : ∀ id, k'.loan id = none → k.loan id = none

namespace Adds

variable {k k' k'' : LoanBook} {issues issues' : List Issue}

/-- A call that stores a loan where one is, if anywhere. -/
theorem nothing (h : ∀ id, k.loan id = none ↔ k'.loan id = none) : Adds k [] k' := by
  refine ⟨fun id loan hn hl => ?_, fun i hi => absurd hi List.not_mem_nil, fun id => (h id).2⟩
  rw [(h id).1 hn] at hl
  cases hl

theorem congr (h : Adds k issues k') (hl : k''.loan = k'.loan) : Adds k issues k'' :=
  ⟨fun id loan hn hl' => h.only id loan hn (hl ▸ hl'), fun i hi => hl ▸ h.all i hi, fun id hn => h.kept id (hl ▸ hn)⟩

theorem setLoan {id : Nat} {old : LoanRecord} (ho : k.loan id = some old) (new : LoanRecord) :
    Adds k [] (k.setLoan id new) := by
  refine nothing fun i => ?_
  by_cases hi : i = id
  · subst hi
    simp [ho]
  · rw [LoanBook.setLoan_loan, update_of_ne hi]

theorem mark (now : Nat) (k : LoanBook) (ids : List Nat) : Adds k [] (k.markAll now ids) := by
  refine nothing fun id => ?_
  refine LoanBook.markAll_keeps (I := fun k' => k.loan id = none ↔ k'.loan id = none) (fun k' i hk' => ?_) ids Iff.rfl
  rcases LoanBook.markDefault_cases now k' i with h | ⟨loan, hl, -, h⟩
  · rw [h, hk']
  · rw [h, hk']
    change _ ↔ update k'.loan i (some { loan with status := .defaulted }) id = none
    by_cases hi : id = i
    · subst hi
      simp [hl]
    · rw [update_of_ne hi]

/-- Issuing a loan under an unused id, which leaves the stored ones alone. -/
theorem issue (hk : k.Keyed) {n : Nat} {b : Address} {loan : LoanRecord} (hf : Fresh k n b loan) :
    Adds k [loan.issue] ((k.takeIds (n + 1)).issue loan) ∧
      ∀ id l, k.loan id = some l → ((k.takeIds (n + 1)).issue loan).loan id = some l := by
  have hunused : k.loan loan.id = none := hk.unused (by have := hf.id; omega)
  refine ⟨⟨fun id l hn hl => ?_, fun i hi => ?_, fun id hn => ?_⟩, fun id l hl => ?_⟩
  · rcases LoanBook.setLoan_cases hl with ⟨-, rfl⟩ | ⟨-, hl⟩
    · exact List.mem_singleton_self _
    · rw [LoanBook.takeIds_loan, hn] at hl
      cases hl
  · rw [List.mem_singleton.1 hi]
    exact ⟨loan.id, loan, hunused, update_self .., hf.status, rfl⟩
  · by_cases hi : id = loan.id
    · rw [hi, hunused]
    · rwa [LoanBook.issue_loan, update_of_ne hi] at hn
  · have hi : id ≠ loan.id := by
      rintro rfl
      rw [hunused] at hl
      cases hl
    rw [LoanBook.issue_loan, update_of_ne hi]
    exact hl

/-- One after another, the second leaving the stored loans alone. -/
theorem append (h : Adds k issues k') (h' : Adds k' issues' k'')
    (hkeep : ∀ id loan, k'.loan id = some loan → k''.loan id = some loan) : Adds k (issues ++ issues') k'' := by
  refine ⟨fun id loan hn hl => ?_, fun i hi => ?_, fun id hn => h.kept id (h'.kept id hn)⟩
  · cases hl' : k'.loan id with
    | none => exact List.mem_append_right _ (h'.only id loan hl' hl)
    | some l =>
      rw [hkeep id l hl'] at hl
      cases hl
      exact List.mem_append_left _ (h.only id loan hn hl')
  · rcases List.mem_append.1 hi with hi | hi
    · obtain ⟨id, loan, hn, hl, hst, hissue⟩ := h.all i hi
      exact ⟨id, loan, hn, hkeep id loan hl, hst, hissue⟩
    · obtain ⟨id, loan, hn, hl, hst, hissue⟩ := h'.all i hi
      exact ⟨id, loan, h.kept id hn, hl, hst, hissue⟩

/-- A pool issues one loan for each entry. -/
theorem pool {token : Address} {pool : List (Address × Int)} (hk : k.Keyed) (hp : PoolEffect token k pool k') :
    Adds k (pool.map fun e => ⟨e.1, e.2, token⟩) k' ∧ ∀ id loan, k.loan id = some loan → k'.loan id = some loan := by
  induction hp with
  | nil => exact ⟨nothing fun _ => Iff.rfl, fun _ _ => id⟩
  | @cons k borrower amount loan rest k' hf hamount htoken _ ih =>
    obtain ⟨hrest, hkeep'⟩ := ih (hk.issue hf)
    obtain ⟨hfirst, hkeep⟩ := issue hk hf
    have hissue : loan.issue = ⟨borrower, amount, token⟩ := by rw [LoanRecord.issue, hf.borrower, hamount, htoken]
    rw [hissue] at hfirst
    exact ⟨hfirst.append hrest hkeep', fun id l hl => hkeep' id l (hkeep id l hl)⟩

theorem effect {w : World} {op : Op} (hk : k.Keyed) (he : Effect w k op k') : Adds k (op.issues w) k' := by
  cases he with
  | looked honly =>
    have hnone : op.issues w = [] := by cases op <;> first | rfl | cases honly
    rw [hnone]
    exact mark w.now k _
  | @requested borrower amount threshold purpose token loan _ hf hamount htoken =>
    obtain ⟨ids, hopen⟩ := LoanBook.openLoan_eq ((k.markAll w.now (k.borrowerLoanIds borrower)).takeIds 2) loan
    have hissue : loan.issue = ⟨borrower, amount, token⟩ := by rw [LoanRecord.issue, hf.borrower, hamount, htoken]
    obtain ⟨hadd, hkeep⟩ := issue (hk.markAll w.now _) hf
    rw [hopen]
    rw [hissue] at hadd
    exact ((mark w.now k _).append hadd hkeep).congr rfl
  | paid ho hs _ _ _ | recovered ho _ hs _ _ _ => exact setLoan (hs.id ▸ (hk.loan_to_repay ho).1) _
  | closed ho _ hs _ _ _ => exact (setLoan (hs.id ▸ (hk.loan_to_repay ho).1) _).congr rfl
  | paidPartial ho hs _ _ _ => exact setLoan (hs.id ▸ (hk.active_record ho).2.1) _
  | @refinanced borrower amount threshold token old new loan ho hs hst _ _ hf hamount htoken =>
    have hl := (hk.active_record ho).2.1
    have hissue : loan.issue = ⟨borrower, amount, token⟩ := by rw [LoanRecord.issue, hf.borrower, hamount, htoken]
    obtain ⟨hadd, hkeep⟩ := issue ((hk.store hl hs (.inr hst)).release borrower) (hf.congr rfl)
    rw [hissue] at hadd
    have hclosed : Adds k [] ((k.setLoan new.id new).setActiveLoan borrower none) :=
      (setLoan (hs.id ▸ hl) new).congr rfl
    exact hclosed.append hadd hkeep
  | pooled _ _ hp => exact (pool hk hp).1
  | slashed ho _ | claimed ho _ _ | executedVote ho _ | executedPending ho _ =>
    exact (setLoan (hk.active_record ho).2.1 _).congr rfl
  | autoSlashed _ _ => exact nothing fun _ => Iff.rfl

end Adds

/-! ## Vouches and statistics stay -/

/-- The records and statistics the stake behind a loan is computed from. -/
def Vouching.stakes (x : Vouching) : (Address → Option (List VouchRecord)) × (Address → Option VoucherStats) :=
  (x.vouches, x.voucherStats)

def Vault.stakes (v : Vault) : (Address → Option (List VouchRecord)) × (Address → Option VoucherStats) :=
  v.vouching.stakes

def Store.stakes (s : Store) : (Address → Option (List VouchRecord)) × (Address → Option VoucherStats) := s.vault.stakes

instance : Inside Store.stakes Vault Vault.stakes where
instance : Inside Vault.stakes Vouching Vouching.stakes where
instance : Apart Vault.stakes Ledger where
instance : Apart Store.stakes Access where
instance : Apart Store.stakes LoanBook where
instance : Apart Store.stakes Ballots where
instance : Apart Store.stakes Terms where
instance : Apart Store.stakes Slashing where

/-- `f` does not look at the yield cache. -/
class OffYields {γ : Type} (f : Vouching → γ) : Prop where
  out : ∀ x cache, f { x with yieldCache := cache } = f x := by intros; rfl

instance : OffYields Vouching.stakes where

section Calls

variable {ctx : Context} {s : Store} {x : Vouching} {γ : Type} {f : Vouching → γ}

theorem weightedStake_spec (v : VouchRecord) :
    Yields (weightedStake v) ctx x fun stake x' => stake = weighted x v ∧ x' = x := by
  simp only [weightedStake, vouchReputationWeight, yields_steps, yields_i128]
  exact fun _ _ => ⟨rfl, trivial⟩

theorem totalWeightedStake_spec (token : Address) (acc : Int) (vouches : List VouchRecord) :
    Yields (totalWeightedStake token acc vouches) ctx x fun total x' =>
      total = acc + weightedTotal x token vouches ∧ x' = x := by
  induction vouches generalizing acc with
  | nil => simp [totalWeightedStake, weightedTotal, inToken]
  | cons v vs ih =>
    by_cases hv : v.token = token
    · simp only [totalWeightedStake, hv, if_true, yields_bind, yields_i128]
      refine (weightedStake_spec v).mono ?_
      rintro stake _ ⟨rfl, rfl⟩ _
      refine (ih _).mono ?_
      rintro total _ ⟨rfl, rfl⟩
      simp only [weightedTotal, inToken, List.filter_cons, hv, decide_true, if_true, List.map_cons, List.sum_cons]
      exact ⟨by omega, trivial⟩
    · simp only [totalWeightedStake, hv, if_false]
      refine (ih acc).mono ?_
      rintro total _ ⟨rfl, rfl⟩
      simp [weightedTotal, inToken, hv]

/-- The cap of `request_loan`, on the weighted stake. -/
theorem requireCollateral_spec (borrower token : Address) (amount threshold : Int) :
    Yields (requireCollateral borrower token amount threshold) ctx x fun _ x' => x' = x ∧
      amount ≤ (weightedTotal x token (x.vouchesOf borrower) * ctx.config.maxLoanToStakeRatio).tdiv 100 := by
  simp only [requireCollateral, yields_steps, yields_requireRatio]
  refine (totalWeightedStake_spec _ _ _).mono ?_
  rintro total x' ⟨rfl, rfl⟩ _ _ _ _ hcap
  rw [zero_add] at hcap
  exact ⟨rfl, hcap⟩

instance [OffYields f] (borrower : Address) (v : VouchRecord) (repayments defaults : Nat) :
    Keeps f (vouchYieldBps borrower v repayments defaults) where
  out ctx x := by
    have hcached : Keeps (id : Vouching → Vouching) (getCachedYield borrower v.voucher ctx.config.yieldBps) := by
      constructor
      intro ctx x
      simp only [getCachedYield, yields_steps]
      split
      · simp
      · split
        · simp
        · split <;> simp
    have huncached : Keeps (id : Vouching → Vouching) (vouchYieldBpsUncached v repayments defaults) := by
      unfold vouchYieldBpsUncached; infer_instance
    simp only [vouchYieldBps, yields_steps]
    refine yields_keeps id fun cached x₁ h₁ => ?_
    rw [id, id] at h₁
    subst h₁
    cases cached with
    | some rate => simp
    | none =>
      simp only [yields_steps]
      refine yields_keeps id fun rate x₂ h₂ => ?_
      rw [id, id] at h₂
      subst h₂
      exact OffYields.out _ _

instance (v : VouchRecord) : Keeps f (weightedStake v) where
  out _ _ := (weightedStake_spec v).mono fun _ _ h => congrArg f h.2

instance (token : Address) (acc : Int) (vouches : List VouchRecord) :
    Keeps f (totalWeightedStake token acc vouches) where
  out _ _ := (totalWeightedStake_spec token acc vouches).mono fun _ _ h => congrArg f h.2

instance (borrower : Address) (bps : Int) : Keeps f (applyTierRewardsToYield borrower bps) where
  out ctx x := by
    simp only [applyTierRewardsToYield, yields_steps]
    split
    · simp
    · exact Keeps.out ctx x

instance [OffYields f] (borrower : Address) (amount totalStake bonus : Int) (repayments defaults : Nat)
    (v : VouchRecord) : Keeps f (vouchYield borrower amount totalStake bonus repayments defaults v) := by
  unfold vouchYield; infer_instance

instance [OffYields f] (borrower token : Address) (amount totalStake bonus : Int) (repayments defaults : Nat)
    (acc : YieldShares) (vouches : List VouchRecord) :
    Keeps f (yieldDistribution borrower token amount totalStake bonus repayments defaults acc vouches) := by
  induction vouches generalizing acc with
  | nil => unfold yieldDistribution; infer_instance
  | cons v vs ih => unfold yieldDistribution; infer_instance

instance [OffYields f] (borrower token : Address) (amount totalStake : Int) (repayments defaults : Nat) :
    Keeps f (lockYield borrower token amount totalStake repayments defaults) := by
  unfold lockYield; infer_instance

/-! ## What each path checks -/

/-- The cap of `request_loan`: the weighted stakes in the loan's token count. -/
def requestCap (w : World) (s : Store) (borrower token : Address) : Int :=
  (weightedTotal s.vault.vouching token (s.vault.vouching.vouchesOf borrower) * w.config.maxLoanToStakeRatio).tdiv 100

instance (borrower : Address) : Keeps Store.vault (admitBorrower borrower) := by
  unfold admitBorrower; infer_instance

instance (loan : LoanRecord) : Keeps Store.stakes (disburseLoan loan) := by
  unfold disburseLoan; infer_instance

theorem admitLoan_cap (borrower : Address) (amount threshold : Int) (token : Address) :
    Yields (admitLoan borrower amount threshold token) ctx s fun _ t =>
      t.stakes = s.stakes ∧ amount ≤ requestCap ctx.toWorld s borrower token := by
  unfold admitLoan
  simp only [yields_bind, yields_ask, yields_look, yields_require, yields_requireAllowedToken, lift_eq_zoom, lift_self]
  refine yields_keeps Store.vault fun _ s₁ h₁ => ?_
  refine yields_keeps Store.vault fun _ s₂ h₂ _ _ _ => ?_
  refine (yields_zoom _ _ _ _).2 ((yields_zoom _ _ _ _).2 ((requireCollateral_spec _ _ _ _).mono ?_))
  rintro _ x ⟨rfl, hcap⟩
  have hvault : s₂.vault = s.vault := h₂.trans h₁
  refine ⟨congrArg Vault.stakes hvault, ?_⟩
  rw [requestCap, ← hvault]
  exact hcap

theorem requestLoan_cap (borrower : Address) (amount threshold : Int) (purpose : String) (token : Address) :
    Yields (requestLoan borrower amount threshold purpose token) ctx s fun _ t =>
      t.stakes = s.stakes ∧ amount ≤ requestCap ctx.toWorld s borrower token := by
  unfold requestLoan
  simp only [yields_steps, yields_u64]
  refine (admitLoan_cap _ _ _ _).mono fun _ s₁ h₁ => ?_
  obtain ⟨hstakes, hcap⟩ := h₁
  refine yields_keeps Store.stakes fun _ s₂ h₂ => ?_
  refine yields_keeps Store.stakes fun _ s₃ h₃ _ => ?_
  refine yields_keeps Store.stakes fun _ s₄ h₄ => ?_
  refine yields_keeps Store.stakes fun _ s₅ h₅ => ?_
  refine yields_keeps Store.stakes fun _ t ht => ?_
  exact ⟨by rw [ht, h₅, h₄, h₃, h₂, hstakes], hcap⟩

instance (borrower token : Address) (amount threshold : Int) (terms : RefinanceTerms) :
    Keeps Vouching.stakes (requireEligible borrower token amount threshold terms) := by
  unfold requireEligible requireThreshold; infer_instance

set_option synthInstance.maxSize 200000 in
instance (borrower : Address) (amount threshold : Int) (token : Address) :
    Keeps Store.stakes (refinanceLoan borrower amount threshold token) := by
  unfold refinanceLoan; infer_instance

instance (borrower : Address) (amount : Int) (deadline : Nat) :
    Keeps Store.stakes (issuePoolLoan borrower amount deadline) := by
  unfold issuePoolLoan; infer_instance

instance (deadline : Nat) (pool : List (Address × Int)) : Keeps Store.stakes (issuePool deadline pool) := by
  induction pool with
  | nil => unfold issuePool; infer_instance
  | cons entry rest ih => unfold issuePool; infer_instance

/-- A pool's cap is checked on each of its entries. -/
theorem createLoanPool_cap (signers borrowers : List Address) (amounts : List Int) :
    Yields (createLoanPool signers borrowers amounts) ctx s fun _ t =>
      t.stakes = s.stakes ∧ ∀ e ∈ borrowers.zip amounts, PoolEntryOk ctx.toWorld s e.1 e.2 := by
  unfold createLoanPool
  simp only [yields_steps, yields_u64]
  refine (yields_requireAdminApproval _).mono ?_
  rintro _ _ rfl _ _ _
  refine (checkPool_spec _ _).mono ?_
  rintro total _ ⟨rfl, hentries⟩ _
  refine yields_keeps Store.stakes fun _ s₂ h₂ => ?_
  refine yields_keeps Store.stakes fun _ t ht => ?_
  exact ⟨ht.trans h₂, hentries⟩

end Calls

namespace Op

/-- The stakes the path counts behind a loan. -/
def counted (s : State) (op : Op) (e : Issue) : Int :=
  let x := s.store.vault.vouching
  match op with
  | .createLoanPool .. => stakeSum (x.vouchesOf e.borrower)
  | _ => weightedTotal x e.token (x.vouchesOf e.borrower)

/-- What the path counts beyond the plain stakes in the loan's token. -/
def extra (s : State) (op : Op) (e : Issue) : Int :=
  let x := s.store.vault.vouching
  match op with
  | .createLoanPool .. => foreignStake e.token (x.vouchesOf e.borrower)
  | _ => reputationExtra x e.token (x.vouchesOf e.borrower)

/-- `refinance_loan` is the path without a cap. -/
def checksCap : Op → Bool
  | .refinanceLoan .. => false
  | _ => true

theorem counted_eq (s : State) (op : Op) (e : Issue) :
    op.counted s e = plainStake e.token (s.store.vault.vouching.vouchesOf e.borrower) + op.extra s e := by
  cases op
  case createLoanPool => exact stakeSum_eq _ _
  all_goals exact weightedTotal_eq _ _ _

/-- Each loan leaves room under the cap for what its path counts too much: it
counts nothing too much and checks the cap, or the amount stays below by it. -/
def hasRoom (s : State) (op : Op) : Prop :=
  ∀ e ∈ op.issues s.world,
    (op.checksCap = true ∧ 0 < e.amount ∧ op.extra s e ≤ 0) ∨
      e.amount * 100 + op.extra s e * s.world.config.maxLoanToStakeRatio ≤
        op.counted s e * s.world.config.maxLoanToStakeRatio

end Op

/-- Issuing changes no stake, and each path that checks a cap has checked it on every loan it issues. -/
theorem cap_of {s : State} {c : Call} {t : Store} (h : exec c s = .ok t) {e : Issue} (he : e ∈ c.op.issues s.world) :
    t.stakes = s.store.stakes ∧ (c.op.checksCap = true →
      e.amount ≤ (c.op.counted s e * s.world.config.maxLoanToStakeRatio).tdiv 100) := by
  obtain ⟨signers, op⟩ := c
  unfold exec at h
  split at h
  case h_2 => cases h
  case h_1 u t' hrun =>
    cases h
    cases op with
    | requestLoan borrower amount threshold purpose token =>
      obtain ⟨hstakes, hcap⟩ := requestLoan_cap borrower amount threshold purpose token u _ hrun
      rw [List.mem_singleton.1 he]
      exact ⟨hstakes, fun _ => hcap⟩
    | refinanceLoan borrower amount threshold token =>
      have hkeeps : Keeps Store.stakes (refinanceLoan borrower amount threshold token) := inferInstance
      exact ⟨hkeeps.out _ _ u _ hrun, fun hc => by cases hc⟩
    | createLoanPool pool borrowers amounts =>
      have hpool : Yields (discard (createLoanPool pool borrowers amounts))
          (s.context ⟨signers, .createLoanPool pool borrowers amounts⟩) s.store fun _ t =>
          t.stakes = s.store.stakes ∧ ∀ e ∈ borrowers.zip amounts, PoolEntryOk s.world s.store e.1 e.2 := by
        simp only [discard, yields_steps]
        exact createLoanPool_cap pool borrowers amounts
      obtain ⟨hstakes, hentries⟩ := hpool u _ hrun
      obtain ⟨entry, hentry, rfl⟩ := List.mem_map.1 he
      exact ⟨hstakes, fun _ => (hentries entry hentry).2⟩
    | _ => cases he

theorem le_of_tdiv {a x : Int} (ha : 0 < a) (h : a ≤ x.tdiv 100) : a * 100 ≤ x := by
  rcases Int.le_total 0 x with hx | hx
  · rw [Int.tdiv_eq_ediv_of_nonneg hx] at h
    omega
  · have hneg : 0 ≤ (-x).tdiv 100 := Int.tdiv_nonneg (by omega) (by omega)
    rw [Int.neg_tdiv] at hneg
    omega

/-- Every active loan the call adds is within the ratio of the stakes in its
token behind its borrower. -/
def CollateralBound (s : State) (t : Store) : Prop :=
  ∀ id loan, s.store.book.loan id = none → t.book.loan id = some loan → loan.status = .active →
    loan.amount * 100 ≤
      plainStake loan.tokenAddress (t.vault.vouching.vouchesOf loan.borrower) * s.world.config.maxLoanToStakeRatio

/-- The collateral bound holds of a call exactly where each loan it issues
leaves room for what its path counts beyond the stakes in the loan's token. -/
theorem collateral_iff {s : State} (hr : Reachable s) {c : Call} {t : Store} (h : exec c s = .ok t) :
    CollateralBound s t ↔ c.op.hasRoom s := by
  obtain ⟨hist, hr⟩ := hr
  have hadds : Adds s.store.book (c.op.issues s.world) t.book := Adds.effect hr.keyed (effect_of h)
  have hvouches : ∀ {e}, e ∈ c.op.issues s.world →
      t.vault.vouching.vouchesOf e.borrower = s.store.vault.vouching.vouchesOf e.borrower := by
    intro e he
    have hstakes := congrArg Prod.fst (cap_of h he).1
    exact congrArg (fun m => (m e.borrower).getD []) hstakes
  constructor
  · intro hb e he
    obtain ⟨id, loan, hn, hl, hst, rfl⟩ := hadds.all e he
    have hbound := hb id loan hn hl hst
    rw [show loan.borrower = loan.issue.borrower from rfl, hvouches he] at hbound
    refine .inr ?_
    rw [Op.counted_eq, Int.add_mul]
    exact Int.add_le_add_right hbound _
  · intro hroom id loan hn hl hst
    have he := hadds.only id loan hn hl
    rw [show loan.borrower = loan.issue.borrower from rfl, hvouches he]
    have hcounted := Op.counted_eq s c.op loan.issue
    rcases hroom loan.issue he with ⟨hc, hpos, hextra⟩ | hroom
    · have hcap := le_of_tdiv hpos ((cap_of h he).2 hc)
      have hless : c.op.counted s loan.issue ≤
          plainStake loan.issue.token (s.store.vault.vouching.vouchesOf loan.issue.borrower) := by omega
      exact hcap.trans (Int.mul_le_mul_of_nonneg_right hless (Int.natCast_nonneg _))
    · rw [hcounted, Int.add_mul] at hroom
      exact Int.le_of_add_le_add_right hroom

/-- Account 10 with one vouch behind it, in `token`. -/
def backed (token : Address) : State := start.play [.call [2] (.vouch 2 10 1000000 token 0)]

/-- A pool of one loan to account 10. -/
def issuePoolTo10 : Call := ⟨[1], .createLoanPool [1] [10] [500000]⟩

theorem collateral_iff_pool :
    CollateralBound (backed 100) ((backed 100).after issuePoolTo10).store ↔ issuePoolTo10.op.hasRoom (backed 100) :=
  collateral_iff (Reachable.script sampleWorld sampleBank [.call [2] (.vouch 2 10 1000000 100 0)])
    (exec_after (by decide +kernel))

/-- A pool loan in the protocol's token, backed by a stake in another token only. -/
theorem pool_counts_foreign_stake :
    ∃ s c t, Reachable s ∧ exec c s = .ok t ∧ ¬ CollateralBound s t := by
  have hexec : exec issuePoolTo10 (backed 101) = .ok ((backed 101).after issuePoolTo10).store :=
    exec_after (by decide +kernel)
  have hloan : (((backed 101).after issuePoolTo10).store.book.loan 1).map (fun l => (l.status, l.issue)) =
      some (.active, ⟨10, 500000, 100⟩) := by decide +kernel
  have hstake : plainStake 100 (((backed 101).after issuePoolTo10).store.vault.vouching.vouchesOf 10) = 0 := by
    decide +kernel
  have hunused : ((backed 101).store.book.loan 1).isNone = true := by decide +kernel
  obtain ⟨loan, hl, hloan⟩ := Option.map_eq_some_iff.1 hloan
  obtain ⟨hst, hissue⟩ := Prod.mk.inj hloan
  obtain ⟨hborrower, hamount, htoken⟩ := Issue.mk.inj hissue
  refine ⟨_, _, _, Reachable.script sampleWorld sampleBank [.call [2] (.vouch 2 10 1000000 101 0)], hexec, fun hb => ?_⟩
  have hbound := hb 1 loan (Option.isNone_iff_eq_none.1 hunused) hl hst
  rw [hborrower, hamount, htoken, hstake] at hbound
  omega

end QuorumCredit
