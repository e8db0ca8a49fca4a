import QuorumCredit.Host.Goes
/-!
# Returned errors

A function may return an error to a caller that goes on in the same transaction.
What it did before the error then stays, unlike in a transaction that fails.
`Staged` is the type of such functions: a sequence of stages, each of which fails
before it has done anything. `settle` is the caller that hands the error on, and
so takes the whole transaction down with it; `each` goes on with the next item.
-/

namespace Host

variable {ω ε γ σ β α δ : Type} {catches : ε → Option γ}

/-- A function that may return an error that `catches` accepts, and leaves what it did. -/
def Staged (ω : Type) (_ : ε → Option γ) (σ : Type) (α : Type) : Type := Tx ω ε σ (Except γ α)

namespace Staged

/-- The transaction of a caller that goes on in any case. -/
def run (x : Staged ω catches σ α) : Tx ω ε σ (Except γ α) := x

instance : Monad (Staged ω catches σ) where
  pure a := (pure (.ok a) : Tx ω ε σ _)
  bind x f := (do
    match ← x.run with
    | .ok a => (f a).run
    | .error c => pure (.error c) : Tx ω ε σ _)

/-- A transaction, as one stage. -/
def stage (x : Tx ω ε σ α) : Staged ω catches σ α := attempt catches x

instance : MonadLift (Tx ω ε σ) (Staged ω catches σ) := ⟨stage⟩

/-- A function on one part of the state. -/
def within [Part σ β] (x : Staged ω catches β α) : Staged ω catches σ α := zoom x.run

/-- A lift is one stage. -/
@[simp] theorem lift_eq_stage {m : Type → Type} [MonadLiftT m (Tx ω ε σ)] (x : m α) :
    (@monadLift m (Staged ω catches σ) (instMonadLiftTOfMonadLift m (Tx ω ε σ) (Staged ω catches σ)) α x)
      = stage (monadLift x : Tx ω ε σ α) := rfl

/-- The transaction returns the error without having done anything. -/
def Refuses (catches : ε → Option γ) (x : Tx ω ε σ α) (w : ω) (s : σ) (c : γ) : Prop :=
  ∃ e, x w s = .error e ∧ catches e = some c

theorem run_pure (a : α) : (pure a : Staged ω catches σ α).run = pure (.ok a) := rfl

theorem run_bind (x : Staged ω catches σ α) (f : α → Staged ω catches σ δ) :
    (x >>= f).run = (do
      match ← x.run with
      | .ok a => (f a).run
      | .error c => pure (.error c)) := rfl

theorem run_stage (x : Tx ω ε σ α) : (stage x : Staged ω catches σ α).run = attempt catches x := rfl

theorem run_stage_bind_ok {x : Tx ω ε σ α} {w : ω} {s t : σ} {a : α} (h : x w s = .ok (a, t))
    (f : α → Staged ω catches σ δ) : (stage x >>= f).run w s = (f a).run w t := by
  rw [run_bind, run_stage, Host.run_bind_ok (attempt_ok h)]

/-- An error of the first stage ends the function, before it has done anything. -/
theorem run_stage_bind_error {x : Tx ω ε σ α} {w : ω} {s : σ} {e : ε} {c : γ} (h : x w s = .error e)
    (hc : catches e = some c) (f : α → Staged ω catches σ δ) : (stage x >>= f).run w s = .ok (.error c, s) := by
  rw [run_bind, run_stage, Host.run_bind_ok (attempt_error h hc)]
  rfl

theorem run_within_error [Part σ β] {x : Staged ω catches β α} {w : ω} {s : σ} {c : γ}
    (h : x.run w (Part.get s) = .ok (.error c, Part.get s)) (f : α → Staged ω catches σ δ) :
    (within x >>= f).run w s = .ok (.error c, s) := by
  have hx : (within x : Staged ω catches σ α).run w s = .ok (.error c, s) := by
    refine (zoom_of_ok h).trans ?_
    rw [Part.set_get]
  rw [run_bind, Host.run_bind_ok hx]
  rfl

/-! ## Refusals -/

section

variable {w : ω} {s : σ} {c : γ}

@[simp] theorem refuses_pure (a : α) : ¬ Refuses catches (pure a : Tx ω ε σ α) w s c := by
  rintro ⟨e, ⟨⟩, -⟩

@[simp] theorem refuses_ask : ¬ Refuses catches (ask : Tx ω ε σ ω) w s c := by
  rintro ⟨e, ⟨⟩, -⟩

@[simp] theorem refuses_look (f : σ → α) : ¬ Refuses catches (look f : Tx ω ε σ α) w s c := by
  rintro ⟨e, ⟨⟩, -⟩

@[simp] theorem refuses_alter (f : σ → σ) : ¬ Refuses catches (alter f : Tx ω ε σ Unit) w s c := by
  rintro ⟨e, ⟨⟩, -⟩

@[simp] theorem refuses_require (p : Prop) [Decidable p] (e : ε) :
    Refuses catches (require p e : Tx ω ε σ Unit) w s c ↔ ¬ p ∧ catches e = some c := by
  unfold Refuses
  rw [run_require]
  split
  case isTrue h => simp [h]
  case isFalse h => simp [h]

@[simp] theorem refuses_orFail (o : Option α) (e : ε) :
    Refuses catches (orFail o e : Tx ω ε σ α) w s c ↔ o = none ∧ catches e = some c := by
  cases o with
  | none => simp [orFail, Refuses, run_fail]
  | some a => simp [orFail, Refuses, Host.run_pure]

@[simp] theorem refuses_i128 (e : ε) (x : Int) :
    Refuses catches (i128 e x : Tx ω ε σ Int) w s c ↔ ¬ FitsI128 x ∧ catches e = some c := by
  unfold Refuses
  rw [run_i128]
  split
  case isTrue h => simp [h]
  case isFalse h => simp [h]

@[simp] theorem refuses_bind (x : Tx ω ε σ α) (f : α → Tx ω ε σ δ) :
    Refuses catches (x >>= f) w s c ↔
      Refuses catches x w s c ∨ ∃ a t, x w s = .ok (a, t) ∧ Refuses catches (f a) w t c := by
  unfold Refuses
  rw [Host.run_bind]
  cases x w s with
  | error e => simp
  | ok p =>
    obtain ⟨a, t⟩ := p
    constructor
    · exact fun h => .inr ⟨a, t, rfl, h⟩
    · rintro (⟨e, ⟨⟩, -⟩ | ⟨a', t', ⟨⟩, h⟩)
      exact h

@[simp] theorem refuses_zoom [Part σ β] (x : Tx ω ε β α) :
    Refuses catches (zoom x : Tx ω ε σ α) w s c ↔ Refuses catches x w (Part.get s) c := by
  unfold Refuses
  rw [run_zoom]
  cases x w (Part.get s) with
  | ok p => simp
  | error e => simp

theorem not_refuses_of_ok {x : Tx ω ε σ α} {a : α} {t : σ} (h : x w s = .ok (a, t)) : ¬ Refuses catches x w s c := by
  rintro ⟨e, he, -⟩
  rw [h] at he
  cases he

end

/-! ### Without refusal

`Firm x`: no error of `x` is returned; it goes through or fails altogether. A
class, found for a whole body of code by its shape. -/

/-- `catches` does not accept the error. -/
class Uncaught (catches : ε → Option γ) (e : ε) : Prop where
  out : catches e = none

class Firm (catches : ε → Option γ) (x : Tx ω ε σ α) : Prop where
  out : ∀ w s c, ¬ Refuses catches x w s c

section

variable (catches)

instance (a : α) : Firm catches (pure a : Tx ω ε σ α) := ⟨fun _ _ _ => refuses_pure a⟩

instance : Firm catches (ask : Tx ω ε σ ω) := ⟨fun _ _ _ => refuses_ask⟩

instance (f : σ → α) : Firm catches (look f : Tx ω ε σ α) := ⟨fun _ _ _ => refuses_look f⟩

instance (f : σ → σ) : Firm catches (alter f : Tx ω ε σ Unit) := ⟨fun _ _ _ => refuses_alter f⟩

instance (p : Prop) [Decidable p] (e : ε) [h : Uncaught catches e] : Firm catches (require p e : Tx ω ε σ Unit) where
  out w s c hc := by
    have hcaught := ((refuses_require p e).1 hc).2
    rw [h.out] at hcaught
    cases hcaught

instance (o : Option α) (e : ε) [h : Uncaught catches e] : Firm catches (orFail o e : Tx ω ε σ α) where
  out w s c hc := by
    have hcaught := ((refuses_orFail o e).1 hc).2
    rw [h.out] at hcaught
    cases hcaught

variable {catches} in
theorem Firm.bind {x : Tx ω ε σ α} {f : α → Tx ω ε σ δ} (hx : Firm catches x) (hf : ∀ a, Firm catches (f a)) :
    Firm catches (x >>= f) where
  out w s c hc := by
    rcases (refuses_bind x f).1 hc with hc | ⟨a, t, -, hc⟩
    · exact hx.out w s c hc
    · exact (hf a).out w t c hc

instance (x : Tx ω ε σ α) (f : α → Tx ω ε σ δ) [hx : Firm catches x] [hf : ∀ a, Firm catches (f a)] :
    Firm catches (x >>= f) := hx.bind hf

instance (p : Prop) [Decidable p] (x y : Tx ω ε σ α) [Firm catches x] [Firm catches y] :
    Firm catches (if p then x else y) := by
  split <;> infer_instance

instance [Part σ β] (x : Tx ω ε β α) [h : Firm catches x] : Firm catches (zoom x : Tx ω ε σ α) where
  out w _ c hc := h.out w _ c ((refuses_zoom x).1 hc)

instance (e : ε) (x : Int) [Uncaught catches e] : Firm catches (i128 e x : Tx ω ε σ Int) := by
  unfold i128; infer_instance

instance (e : ε) (n : Nat) [Uncaught catches e] : Firm catches (u64 e n : Tx ω ε σ Nat) := by
  unfold u64; infer_instance

instance (e : ε) (x y : Int) [Uncaught catches e] : Firm catches (divI128 e x y : Tx ω ε σ Int) := by
  unfold divI128; infer_instance

end

/-! ## Handing errors on -/

/-- The transaction of a caller that hands an error on. -/
def settle (raise : γ → ε) (x : Staged ω catches σ α) : Tx ω ε σ α := do
  match ← x.run with
  | .ok a => pure a
  | .error c => fail (raise c)

section

variable {raise : γ → ε}

theorem settle_pure (a : α) : settle raise (pure a : Staged ω catches σ α) = pure a := rfl

theorem settle_bind (x : Staged ω catches σ α) (f : α → Staged ω catches σ δ) :
    settle raise (x >>= f) = settle raise x >>= fun a => settle raise (f a) := by
  funext w s
  simp only [settle, run_bind, Host.run_bind]
  cases x.run w s with
  | error e => rfl
  | ok p =>
    obtain ⟨r, t⟩ := p
    cases r with
    | ok a => rfl
    | error c => rfl

/-- One stage, its error handed on, is the transaction again. -/
theorem settle_stage (hraise : ∀ e c, catches e = some c → raise c = e) (x : Tx ω ε σ α) :
    settle raise (stage x : Staged ω catches σ α) = x := by
  funext w s
  simp only [settle, run_stage, Host.run_bind, attempt]
  cases hx : x w s with
  | ok p => rfl
  | error e =>
    dsimp only
    cases hc : catches e with
    | none => rfl
    | some c =>
      rw [← hraise e c hc]
      rfl

theorem settle_within [Part σ β] (x : Staged ω catches β α) :
    settle raise (within x : Staged ω catches σ α) = zoom (settle raise x) := by
  funext w s
  have hwithin : (within x : Staged ω catches σ α).run = zoom x.run := rfl
  simp only [settle, hwithin, Host.run_bind, run_zoom]
  cases x.run w (Part.get s) with
  | error e => rfl
  | ok p =>
    obtain ⟨r, t⟩ := p
    cases r with
    | ok a => rfl
    | error c => rfl

theorem settle_of_ok {x : Staged ω catches σ α} {w : ω} {s t : σ} {a : α} (h : x.run w s = .ok (.ok a, t)) :
    settle raise x w s = .ok (a, t) := by
  rw [settle, run_bind_ok h]
  rfl

theorem settle_of_error {x : Staged ω catches σ α} {w : ω} {s t : σ} {c : γ} (h : x.run w s = .ok (.error c, t)) :
    settle raise x w s = .error (raise c) := by
  rw [settle, run_bind_ok h]
  rfl

theorem of_settle_ok {x : Staged ω catches σ α} {w : ω} {s t : σ} {a : α} (h : settle raise x w s = .ok (a, t)) :
    x.run w s = .ok (.ok a, t) := by
  obtain ⟨r, u, hx, h⟩ := bind_ok h
  cases r with
  | ok b =>
    obtain ⟨rfl, rfl⟩ := pure_ok h
    exact hx
  | error c => cases h

end

/-! ## What is left behind -/

theorem yields_pure (a : α) (w : ω) (s : σ) (Q : Except γ α → σ → Prop) :
    Yields (pure a : Staged ω catches σ α).run w s Q ↔ Q (.ok a) s :=
  Host.yields_pure ..

/-- A stage goes through, or is refused and has done nothing. -/
theorem yields_stage (x : Tx ω ε σ α) (w : ω) (s : σ) (Q : Except γ α → σ → Prop) :
    Yields (stage x : Staged ω catches σ α).run w s Q ↔
      (Yields x w s fun a t => Q (.ok a) t) ∧ ∀ c, Refuses catches x w s c → Q (.error c) s := by
  unfold Yields Refuses
  rw [run_stage]
  unfold attempt
  cases hx : x w s with
  | ok p =>
    constructor
    · intro h
      refine ⟨?_, ?_⟩
      · rintro a t ⟨⟩
        exact h _ _ rfl
      · rintro c ⟨e, ⟨⟩, -⟩
    · rintro ⟨h, -⟩ r t ⟨⟩
      exact h _ _ rfl
  | error e =>
    cases hc : catches e with
    | none => simp [hc]
    | some c =>
      simp only [hc]
      constructor
      · intro h
        refine ⟨?_, ?_⟩
        · rintro a t ⟨⟩
        · rintro c' ⟨e', ⟨⟩, hc'⟩
          cases hc.symm.trans hc'
          exact h _ _ rfl
      · rintro ⟨-, h⟩ r t ⟨⟩
        exact h c ⟨e, rfl, hc⟩

theorem yields_bind (x : Staged ω catches σ α) (f : α → Staged ω catches σ δ) (w : ω) (s : σ)
    (Q : Except γ δ → σ → Prop) :
    Yields (x >>= f).run w s Q ↔ Yields x.run w s fun r t =>
      match r with
      | .ok a => Yields (f a).run w t Q
      | .error c => Q (.error c) t := by
  rw [run_bind, Host.yields_bind]
  unfold Yields
  refine forall₃_congr fun r t _ => ?_
  cases r with
  | ok a => rfl
  | error c => exact Host.yields_pure ..

/-- One stage and the rest. -/
theorem yields_stage_bind (x : Tx ω ε σ α) (f : α → Staged ω catches σ δ) (w : ω) (s : σ) (Q : Except γ δ → σ → Prop) :
    Yields (stage x >>= f : Staged ω catches σ δ).run w s Q ↔
      (Yields x w s fun a t => Yields (f a).run w t Q) ∧ ∀ c, Refuses catches x w s c → Q (.error c) s := by
  rw [yields_bind, yields_stage]

/-- One firm stage and the rest. -/
theorem yields_firm_bind (x : Tx ω ε σ α) [h : Firm catches x] (f : α → Staged ω catches σ δ) (w : ω) (s : σ)
    (Q : Except γ δ → σ → Prop) :
    Yields (stage x >>= f : Staged ω catches σ δ).run w s Q ↔ Yields x w s fun a t => Yields (f a).run w t Q := by
  rw [yields_stage_bind]
  exact ⟨And.left, fun hx => ⟨hx, fun c hc => absurd hc (h.out w s c)⟩⟩

end Staged

/-! ## One after another -/

variable {ι ρ : Type}

/-- `f` on every item in turn, with the results. -/
def each (f : ι → Tx ω ε σ ρ) : List ι → Tx ω ε σ (List ρ)
  | [] => pure []
  | i :: items => do
    let r ← f i
    let results ← each f items
    return r :: results

/-- One item of a sequence: the state it is reached in, its result and the state it leaves. -/
structure Took (ι ρ σ : Type) where
  item : ι
  before : σ
  result : ρ
  after : σ

/-- The items taken one after another from `s` to `t`. -/
inductive Sequence (f : ι → Tx ω ε σ ρ) (w : ω) : σ → List (Took ι ρ σ) → σ → Prop
  | nil {s} : Sequence f w s [] s
  | cons {i s r t xs u} : f i w s = .ok (r, t) → Sequence f w t xs u → Sequence f w s (⟨i, s, r, t⟩ :: xs) u

theorem each_sequence {f : ι → Tx ω ε σ ρ} {w : ω} {items : List ι} {s t : σ} {results : List ρ}
    (h : each f items w s = .ok (results, t)) :
    ∃ xs : List (Took ι ρ σ), Sequence f w s xs t ∧ xs.map (·.item) = items ∧ xs.map (·.result) = results := by
  induction items generalizing s results with
  | nil =>
    obtain ⟨rfl, rfl⟩ := pure_ok h
    exact ⟨[], .nil, rfl, rfl⟩
  | cons i items ih =>
    obtain ⟨r, u, hf, h⟩ := bind_ok h
    obtain ⟨rest, v, hrest, h⟩ := bind_ok h
    obtain ⟨rfl, rfl⟩ := pure_ok h
    obtain ⟨xs, hxs, hitems, hresults⟩ := ih hrest
    exact ⟨⟨i, s, r, u⟩ :: xs, .cons hf hxs, congrArg (i :: ·) hitems, congrArg (r :: ·) hresults⟩

namespace Sequence

variable {f : ι → Tx ω ε σ ρ} {w : ω} {s t : σ} {xs : List (Took ι ρ σ)}

/-- Every item was taken in the state it was reached in. -/
theorem ran (h : Sequence f w s xs t) : ∀ x ∈ xs, f x.item w x.before = .ok (x.result, x.after) := by
  induction h with
  | nil => exact List.forall_mem_nil _
  | cons hf _ ih => exact List.forall_mem_cons.2 ⟨hf, ih⟩

/-- What every item keeps, the states before and after each item have. -/
theorem throughout {I : σ → Prop} (h : Sequence f w s xs t) (h0 : I s)
    (hkeeps : ∀ x ∈ xs, I x.before → I x.after) : (∀ x ∈ xs, I x.before) ∧ I t := by
  induction h with
  | nil => exact ⟨List.forall_mem_nil _, h0⟩
  | cons _ _ ih =>
    obtain ⟨hhead, htail⟩ := List.forall_mem_cons.1 hkeeps
    obtain ⟨hall, hend⟩ := ih (hhead h0) htail
    exact ⟨List.forall_mem_cons.2 ⟨h0, hall⟩, hend⟩

theorem single {i : ι} {r : ρ} (h : Sequence f w s xs t) (hitem : xs.map (·.item) = [i])
    (hresult : xs.map (·.result) = [r]) : xs = [⟨i, s, r, t⟩] := by
  cases h with
  | nil => cases hitem
  | cons _ hrest =>
    cases hrest with
    | nil =>
      cases hitem
      cases hresult
      rfl
    | cons => cases hitem

/-- If a hit brings about `I`, and `I` stays and excludes another one, there is at most one. -/
theorem once {I : σ → Prop} (h : Sequence f w s xs t) (hit : ρ → Bool)
    (hsets : ∀ x ∈ xs, hit x.result = true → I x.after)
    (hexcludes : ∀ x ∈ xs, I x.before → hit x.result = false ∧ I x.after) : (xs.map (·.result)).countP hit ≤ 1 := by
  induction h with
  | nil => exact Nat.zero_le 1
  | @cons i s r u xs t _ hrest ih =>
    obtain ⟨hset, hsets⟩ := List.forall_mem_cons.1 hsets
    obtain ⟨-, hexcludes⟩ := List.forall_mem_cons.1 hexcludes
    rw [List.map_cons, List.countP_cons]
    by_cases hr : hit r = true
    · obtain ⟨hbefore, -⟩ := hrest.throughout (hset hr) fun x hx hi => (hexcludes x hx hi).2
      have hnone : (xs.map (·.result)).countP hit = 0 := by
        refine List.countP_eq_zero.2 fun r' hr' => ?_
        obtain ⟨x, hx, rfl⟩ := List.mem_map.1 hr'
        rw [(hexcludes x hx (hbefore x hx)).1]
        exact Bool.false_ne_true
      rw [hnone, if_pos hr]
    · rw [if_neg hr]
      exact ih hsets hexcludes

/-- What composes and holds from before to after each item, holds from end to end. -/
theorem ordered {R : σ → σ → Prop} (hrefl : ∀ s, R s s) (htrans : ∀ s t u, R s t → R t u → R s u)
    (h : Sequence f w s xs t) (hstep : ∀ x ∈ xs, R x.before x.after) :
    R s t ∧ ∀ x ∈ xs, R s x.before ∧ R x.after t := by
  induction h with
  | nil => exact ⟨hrefl _, List.forall_mem_nil _⟩
  | cons _ _ ih =>
    obtain ⟨hhead, htail⟩ := List.forall_mem_cons.1 hstep
    obtain ⟨hrest, hall⟩ := ih htail
    refine ⟨htrans _ _ _ hhead hrest, List.forall_mem_cons.2 ⟨⟨hrefl _, hrest⟩, fun x hx => ?_⟩⟩
    exact ⟨htrans _ _ _ hhead (hall x hx).1, (hall x hx).2⟩

/-- With at least one item, nothing has to hold of a state and itself. -/
theorem advance {R : σ → σ → Prop} (htrans : ∀ s t u, R s t → R t u → R s u) (h : Sequence f w s xs t)
    (hstep : ∀ x ∈ xs, R x.before x.after) (hsome : xs ≠ []) : R s t := by
  induction h with
  | nil => exact absurd rfl hsome
  | @cons i s r u xs t _ hrest ih =>
    obtain ⟨hhead, htail⟩ := List.forall_mem_cons.1 hstep
    cases xs with
    | nil =>
      cases hrest
      exact hhead
    | cons x xs => exact htrans _ _ _ hhead (ih htail (List.cons_ne_nil x xs))

end Sequence

end Host
