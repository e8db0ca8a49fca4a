import QuorumCredit.RecurringPayment
import QuorumCredit.Draining
/-!
# Buying a voucher out

`set_buyback_price` and `buyback_loan`: for a share of its stake, set by the
borrower, a voucher takes its stake back while the loan is open. The stake is paid
out and stays recorded.
-/

open Host Function

namespace QuorumCredit

structure BuybackStore where
  core : Store
  /-- The field `buyback_price` of the loan records; a loan is issued with 0. -/
  buybackPrice : Nat → Int

instance : Part BuybackStore Store where
  get := BuybackStore.core
  set c s := { s with core := c }

/-- The records of `voucher` in `token`. -/
def recordsOf (voucher token : Address) (vouches : List VouchRecord) : List VouchRecord :=
  vouches.filter fun v => v.voucher = voucher ∧ v.token = token

def setBuybackPrice (borrower : Address) (price : Int) : Contract BuybackStore Unit := do
  requireAuth borrower
  (requireNotThawing : Contract Store _)
  let loan ← (requireActiveLoan borrower : Contract Store _)
  require (0 ≤ price) (.error .invalidAmount)
  alter fun s => { s with buybackPrice := update s.buybackPrice loan.id price }

def buybackLoan (voucher borrower : Address) (amount : Int) : Contract BuybackStore Unit := do
  requireAuth voucher
  (requireNotPaused : Contract Store _)
  let loan ← (requireActiveLoan borrower : Contract Store _)
  let price ← look (·.buybackPrice loan.id)
  require (price ≠ 0) (.error .invalidStateTransition)
  let vouches ← look (·.core.records borrower)
  let totalStake ← sumI128 .arithmetic 0 ((recordsOf voucher loan.tokenAddress vouches).map (·.stake))
  require (totalStake ≠ 0) (.error .voucherNotFound)
  let scaled ← i128 .arithmetic (totalStake * price)
  let cost := scaled.tdiv bpsDenominator
  require (cost ≤ amount) (.error .invalidAmount)
  requireAllowedToken loan.tokenAddress
  (collect loan.tokenAddress voucher cost : Contract Store _)
  (pay loan.tokenAddress voucher totalStake : Contract Store _)

/-! ## The system -/

inductive BuybackOp where
  /-- A call on the loans and the vouches. -/
  | core (op : Op)
  | setBuybackPrice (borrower : Address) (price : Int)
  | buybackLoan (voucher borrower : Address) (amount : Int)

def BuybackOp.run : BuybackOp → Contract BuybackStore Unit
  | .core op => (monadLift (dispatch op : Contract Store Unit) : Contract BuybackStore Unit)
  | .setBuybackPrice borrower price => QuorumCredit.setBuybackPrice borrower price
  | .buybackLoan voucher borrower amount => QuorumCredit.buybackLoan voucher borrower amount

/-- The buyback among the calls on loans and vouches. Balances and the configuration
may change in between. -/
def buybacks : Component World (List Address) Context Failure BuybackStore BuybackOp where
  run := BuybackOp.run
  context w signers := { w with signers }
  drift w s w' s' := w.now ≤ w'.now ∧ w'.contract = w.contract ∧ s'.core.book = s.core.book ∧
    s'.core.records = s.core.records ∧ s'.buybackPrice = s.buybackPrice

abbrev BuybackHistory := List (Situated World BuybackStore × Event World (List Address) BuybackStore BuybackOp)

/-- After `initialize`. -/
def buybackStart (world : World) (bank : Ledger) : Situated World BuybackStore :=
  ⟨world, { core := (genesis world bank).store, buybackPrice := fun _ => 0 }⟩

/-! ## Paid and kept -/

/-- From `s` to `t` what `voucher` is paid in a token has been taken off its stakes
with the borrower. -/
def TakesWhatItPays (w : World) (voucher borrower : Address) (s t : Store) : Prop :=
  ∀ token, stakesOf voucher token (t.records borrower) +
      (Bank.sent t.bank.log token w.contract voucher - Bank.sent s.bank.log token w.contract voucher) =
    stakesOf voucher token (s.records borrower)

theorem recordsOf_sum (voucher token : Address) (vouches : List VouchRecord) :
    ((recordsOf voucher token vouches).map (·.stake)).sum = stakesOf voucher token vouches := by
  induction vouches with
  | nil => rfl
  | cons v vs ih =>
    rw [stakesOf_cons, ← ih, recordsOf]
    by_cases hv : v.voucher = voucher ∧ v.token = token
    · rw [List.filter_cons_of_pos (by simpa using hv), if_pos (Prod.ext hv.1 hv.2)]
      rfl
    · have hkey : v.key ≠ (voucher, token) := fun h => hv ⟨congrArg Prod.fst h, congrArg Prod.snd h⟩
      rw [List.filter_cons_of_neg (by simpa using hv), if_neg hkey, Int.zero_add]
      rfl

/-- What a buyback from `s` to `t` has paid, and that the records are as they were. -/
structure BoughtOut (w : World) (voucher borrower : Address) (s t : Store) (loan : LoanRecord) (cost : Int) : Prop where
  active : s.book.getActiveLoanRecord borrower = some loan
  cost_nonneg : 0 ≤ cost
  staked : 0 < stakesOf voucher loan.tokenAddress (s.records borrower)
  records : t.records = s.records
  bank : t.bank = (s.bank.move loan.tokenAddress voucher w.contract cost).move loan.tokenAddress w.contract voucher
    (stakesOf voucher loan.tokenAddress (s.records borrower))

theorem buybackLoan_pays (voucher borrower : Address) (amount : Int) (ctx : Context) (s : BuybackStore) :
    Yields (buybackLoan voucher borrower amount) ctx s fun _ t =>
      ∃ loan cost, BoughtOut ctx.toWorld voucher borrower s.core t.core loan cost := by
  simp only [buybackLoan, yields_bind, yields_requireAuth, yields_parts]
  intro _
  refine (yields_true _ _ _).mono fun _ x _ => ?_
  simp only [requireActiveLoan, yields_steps]
  intro loan hloan hprice
  refine (yields_sumI128 _ _ _ _ _).mono ?_
  rintro total s' ⟨rfl, rfl⟩
  simp only [yields_i128, yields_requireAllowedToken, yields_collect, yields_pay, recordsOf_sum, Int.zero_add]
  intro hnonzero _ _ _ hcost _ htotal _
  exact ⟨loan, _, hloan, hcost, lt_of_le_of_ne htotal hnonzero.symm, rfl, rfl⟩

/-- No buyback takes what it pays off the stakes. -/
theorem not_takes_what_it_pays {s : Situated World BuybackStore} {signers : List Address}
    {voucher borrower : Address} {amount : Int} {t : BuybackStore}
    (he : buybacks.exec s signers (.buybackLoan voucher borrower amount) = some t) :
    ¬ TakesWhatItPays s.world voucher borrower s.store.core t.core := by
  obtain ⟨loan, cost, hb⟩ := Component.exec_yields
    (Q := fun t => ∃ loan cost, BoughtOut s.world voucher borrower s.store.core t.core loan cost)
    (buybackLoan_pays voucher borrower amount _ s.store) he
  have hcost := hb.cost_nonneg
  have htotal := hb.staked
  intro htakes
  have hown := htakes loan.tokenAddress
  rw [hb.records, hb.bank, Bank.sent_paid, Bank.sent_move] at hown
  split at hown
  · omega
  · omega

/-- The voucher the call buys out, and the borrower. -/
def BuybackOp.buysOut : BuybackOp → Option (Address × Address)
  | .buybackLoan voucher borrower _ => some (voucher, borrower)
  | _ => none

/-- Every buyback of the history takes what it pays off the stakes. -/
def PaysStakesOnce : BuybackHistory → Prop :=
  Along fun s e => ∀ d ∈ buybacks.done s e, ∀ p ∈ d.1.buysOut,
    TakesWhatItPays s.world p.1 p.2 s.store.core d.2.core

/-- In whatever history, of a run or not, the stakes that buybacks pay are taken
off the records exactly if no buyback goes through. -/
theorem buyback_pays_once_iff (h : BuybackHistory) :
    PaysStakesOnce h ↔ Along (buybacks.WhenDone fun _ op => op.buysOut = none) h := by
  refine forall₂_congr fun entry _ => forall₂_congr fun d hd => ?_
  obtain ⟨op, t⟩ := d
  obtain ⟨signers, -, he⟩ := Component.of_done hd
  constructor
  · intro htakes
    cases op with
    | core | setBuybackPrice => rfl
    | buybackLoan voucher borrower amount =>
      exact absurd (htakes (voucher, borrower) rfl) (not_takes_what_it_pays he)
  · intro hnone p hp
    rw [hnone] at hp
    cases hp

/-! ## Paid twice -/

/-- Account 2 backs loan 2 of account 10 with 1000000 in token 100, buys itself out
for 100, and account 10 repays. -/
def boughtOut : List (List Address × BuybackOp) :=
  [([2], .core (.vouch 2 10 1000000 100 0)), ([1], .core (.initializeLoanCovenants 2 10000 10000 31536000)),
    ([10], .core (.requestLoan 10 500000 0 "stock" 100)), ([10], .setBuybackPrice 10 1),
    ([2], .buybackLoan 2 10 100), ([10], .core (.repay 10 510000))]

/-- The repayment pays account 2 the stake that the buyback has paid it. -/
theorem bought_out_and_repaid :
    ∃ h s, Run buybacks.Step (buybackStart sampleWorld sampleBank) h s ∧ ¬ PaysStakesOnce h ∧
      2 * 1000000 ≤ Bank.sent s.store.core.bank.log 100 s.world.contract 2 := by
  refine ⟨_, _, Component.run_play _ .nil boughtOut, ?_, by decide +kernel⟩
  rw [buyback_pays_once_iff]
  unfold Along
  decide +kernel

end QuorumCredit
