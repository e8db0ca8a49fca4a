import QuorumCredit.Host.Goes
import Mathlib.Algebra.Order.BigOperators.Group.List
/-!
# Batches of transfers

A list of transfers made one after the other: the ledger it leaves, and when the
token standard lets each of them through.
-/

namespace Host.Bank

section

variable {Tk Ac : Type} [DecidableEq Tk]

/-! ## What a batch costs -/

/-- What the transfers amount to in the token. -/
def outgo (ts : List (Transfer Tk Ac)) (token : Tk) : Int :=
  (ts.map fun t => if t.token = token then t.amount else 0).sum

@[simp] theorem outgo_nil (token : Tk) : outgo ([] : List (Transfer Tk Ac)) token = 0 := rfl

theorem outgo_cons (t : Transfer Tk Ac) (ts : List (Transfer Tk Ac)) (token : Tk) :
    outgo (t :: ts) token = (if t.token = token then t.amount else 0) + outgo ts token := List.sum_cons

theorem outgo_append (ts us : List (Transfer Tk Ac)) (token : Tk) :
    outgo (ts ++ us) token = outgo ts token + outgo us token := by
  rw [outgo, List.map_append, List.sum_append, outgo, outgo]

theorem outgo_eq_zero {ts : List (Transfer Tk Ac)} {token : Tk} (h : ∀ t ∈ ts, t.token ≠ token) :
    outgo ts token = 0 := by
  refine List.sum_eq_zero fun n hn => ?_
  obtain ⟨t, ht, rfl⟩ := List.mem_map.1 hn
  exact if_neg (h t ht)

end

variable {Tk Ac : Type} [DecidableEq Tk] [DecidableEq Ac]

/-! ## Running a batch -/

/-- The ledger after the transfers, made in order. -/
def moves (b : Bank Tk Ac) : List (Transfer Tk Ac) → Bank Tk Ac
  | [] => b
  | t :: ts => (b.move t.token t.src t.dst t.amount).moves ts

/-- Each transfer finds its amount on the account it is made from. -/
def Covers (b : Bank Tk Ac) : List (Transfer Tk Ac) → Prop
  | [] => True
  | t :: ts => (0 ≤ t.amount ∧ t.amount ≤ b.balance t.token t.src) ∧ (b.move t.token t.src t.dst t.amount).Covers ts

@[simp] theorem moves_nil (b : Bank Tk Ac) : b.moves [] = b := rfl

@[simp] theorem covers_nil (b : Bank Tk Ac) : b.Covers [] := trivial

theorem moves_append (b : Bank Tk Ac) (ts us : List (Transfer Tk Ac)) : b.moves (ts ++ us) = (b.moves ts).moves us := by
  induction ts generalizing b with
  | nil => rfl
  | cons t ts ih => exact ih _

theorem covers_append (b : Bank Tk Ac) (ts us : List (Transfer Tk Ac)) :
    b.Covers (ts ++ us) ↔ b.Covers ts ∧ (b.moves ts).Covers us := by
  induction ts generalizing b with
  | nil => simp
  | cons t ts ih => simp only [List.cons_append, Covers, ih, moves, and_assoc]

/-- The log keeps them all, newest first. -/
theorem moves_log (b : Bank Tk Ac) (ts : List (Transfer Tk Ac)) : (b.moves ts).log = ts.reverse ++ b.log := by
  induction ts generalizing b with
  | nil => rfl
  | cons t ts ih => rw [moves, ih, List.reverse_cons, List.append_assoc]; rfl

/-- A batch adds what it amounts to. -/
theorem outgo_moves (b : Bank Tk Ac) (ts : List (Transfer Tk Ac)) (token : Tk) :
    outgo (b.moves ts).log token = outgo ts token + outgo b.log token := by
  rw [moves_log, outgo_append, outgo, List.map_reverse, List.sum_reverse, ← outgo]

/-! ## What a batch sends -/

theorem sent_append (ts us : List (Transfer Tk Ac)) (token : Tk) (src dst : Ac) :
    sent (ts ++ us) token src dst = sent ts token src dst + sent us token src dst := by
  induction ts with
  | nil => simp [sent]
  | cons t ts ih => rw [List.cons_append, sent, ih, sent, Int.add_assoc]

/-- A batch adds what it sends to what was sent before. -/
theorem sent_moves (b : Bank Tk Ac) (ts : List (Transfer Tk Ac)) (token : Tk) (src dst : Ac) :
    sent (b.moves ts).log token src dst = sent ts token src dst + sent b.log token src dst := by
  induction ts generalizing b with
  | nil => simp [moves, sent]
  | cons t ts ih =>
    rw [moves, ih, sent_move, sent]
    omega

theorem sent_eq_zero {ts : List (Transfer Tk Ac)} {token : Tk} {src dst : Ac}
    (h : ∀ t ∈ ts, ¬ (t.token = token ∧ t.src = src ∧ t.dst = dst)) : sent ts token src dst = 0 := by
  induction ts with
  | nil => rfl
  | cons t ts ih =>
    rw [List.forall_mem_cons] at h
    rw [sent, if_neg h.1, ih h.2, Int.add_zero]

/-! ## What is left -/

/-- A transfer takes from one account and gives to another, which may be the same. -/
theorem balance_move (b : Bank Tk Ac) (token token' : Tk) (src dst who : Ac) (amount : Int) :
    (b.move token src dst amount).balance token' who = b.balance token' who -
      (if token' = token ∧ who = src then amount else 0) + (if token' = token ∧ who = dst then amount else 0) := by
  unfold move credit
  dsimp only
  split <;> split <;> omega

/-- What somebody else pays in. -/
theorem balance_paid_in (b : Bank Tk Ac) (token token' : Tk) {src who : Ac} (hsrc : src ≠ who) (amount : Int) :
    (b.move token src who amount).balance token' who = b.balance token' who + if token = token' then amount else 0 := by
  rw [balance_move]
  by_cases htoken : token = token'
  · simp [htoken, Ne.symm hsrc]
  · simp [htoken, Ne.symm htoken]

/-- What is paid out to somebody else. -/
theorem balance_paid_out (b : Bank Tk Ac) (token token' : Tk) {dst who : Ac} (hdst : dst ≠ who) (amount : Int) :
    (b.move token who dst amount).balance token' who = b.balance token' who - if token = token' then amount else 0 := by
  rw [balance_move]
  by_cases htoken : token = token'
  · simp [htoken, Ne.symm hdst]
  · simp [htoken, Ne.symm htoken]

/-- Whoever is paid, no account is down by more than the amount. -/
theorem le_balance_move (b : Bank Tk Ac) (token token' : Tk) (src dst who : Ac) {amount : Int} (h : 0 ≤ amount) :
    b.balance token' who - (if token = token' then amount else 0) ≤
      (b.move token src dst amount).balance token' who := by
  rw [balance_move]
  by_cases htoken : token = token'
  · simp only [htoken, if_true, true_and]
    split
    · split
      · omega
      · omega
    · split
      · omega
      · omega
  · simp [htoken, Ne.symm htoken]

/-- Nor by more than a batch amounts to. -/
theorem le_balance_moves (b : Bank Tk Ac) {ts : List (Transfer Tk Ac)} (h : ∀ t ∈ ts, 0 ≤ t.amount) (token : Tk)
    (who : Ac) :
    b.balance token who - outgo ts token ≤ (b.moves ts).balance token who := by
  induction ts generalizing b with
  | nil => simp
  | cons t ts ih =>
    obtain ⟨ht, hrest⟩ := List.forall_mem_cons.1 h
    have hstep := b.le_balance_move t.token token t.src t.dst who ht
    have hmoves := ih (b.move t.token t.src t.dst t.amount) hrest
    rw [outgo_cons, moves]
    omega

end Host.Bank
