import QuorumCredit.Host.Tx
/-!
# Transactions in place

A transaction whose writes stay where it fails, as if no host undid them, and
`commit`, the same transaction with the host's rollback. `Settles` says of a run
that it returns with what is wanted, or fails in a way that is let pass.
-/

namespace Host

/-- A transaction in context `ω` over state `σ`, failing with `ε`, that writes in place. -/
abbrev InPlace (ω ε σ : Type) := ReaderT ω (ExceptT ε (StateM σ))

namespace InPlace

variable {ω ε σ β α γ : Type}

def ask : InPlace ω ε σ ω := fun w s => (.ok w, s)

def look (f : σ → α) : InPlace ω ε σ α := fun _ s => (.ok (f s), s)

def alter (f : σ → σ) : InPlace ω ε σ Unit := fun _ s => (.ok (), f s)

def fail (e : ε) : InPlace ω ε σ α := fun _ s => (.error e, s)

def require (c : Prop) [Decidable c] (e : ε) : InPlace ω ε σ Unit :=
  if c then pure () else fail e

def orFail (o : Option α) (e : ε) : InPlace ω ε σ α :=
  match o with
  | some a => pure a
  | none => fail e

/-- On one part of the state. -/
def zoom [Part σ β] (x : InPlace ω ε β α) : InPlace ω ε σ α := fun w s =>
  ((x w (Part.get s)).1, Part.set (x w (Part.get s)).2 s)

/-! ## Running step by step -/

theorem run_bind (x : InPlace ω ε σ α) (f : α → InPlace ω ε σ γ) (w : ω) (s : σ) :
    (x >>= f) w s =
      match x w s with
      | (.ok a, t) => f a w t
      | (.error e, t) => (.error e, t) := by
  change (match x w s with | (r, t) => ExceptT.bindCont (fun a => f a w) r t) = _
  cases x w s with
  | mk r t => cases r <;> rfl

variable {x : InPlace ω ε σ α}

theorem run_bind_ok {w : ω} {s : σ} {a : α} {t : σ} (h : x w s = (.ok a, t)) (f : α → InPlace ω ε σ γ) :
    (x >>= f) w s = f a w t := by
  rw [run_bind, h]

theorem run_bind_error {w : ω} {s : σ} {e : ε} {t : σ} (h : x w s = (.error e, t)) (f : α → InPlace ω ε σ γ) :
    (x >>= f) w s = (.error e, t) := by
  rw [run_bind, h]

@[simp] theorem run_pure (a : α) (w : ω) (s : σ) : (pure a : InPlace ω ε σ α) w s = (.ok a, s) := rfl

theorem run_ask_bind (f : ω → InPlace ω ε σ γ) (w : ω) (s : σ) : (ask >>= f) w s = f w w s := rfl

theorem run_look_bind (g : σ → α) (f : α → InPlace ω ε σ γ) (w : ω) (s : σ) : (look g >>= f) w s = f (g s) w s := rfl

theorem run_alter_bind (g : σ → σ) (f : Unit → InPlace ω ε σ γ) (w : ω) (s : σ) :
    (alter g >>= f) w s = f () w (g s) := rfl

theorem run_require_bind (c : Prop) [Decidable c] (e : ε) (f : Unit → InPlace ω ε σ γ) (w : ω) (s : σ) :
    (require c e >>= f) w s = if c then f () w s else (.error e, s) := by
  unfold require
  split <;> rfl

theorem run_orFail_bind (a : α) (e : ε) (f : α → InPlace ω ε σ γ) (w : ω) (s : σ) :
    (orFail (some a) e >>= f) w s = f a w s := rfl

theorem run_zoom [Part σ β] {x : InPlace ω ε β α} {w : ω} {s : σ} {a : Except ε α} {b : β}
    (h : x w (Part.get s) = (a, b)) : (zoom x : InPlace ω ε σ α) w s = (a, Part.set b s) := by
  simp only [zoom, h]

/-- A run that succeeds, taken apart. -/
theorem bind_ok {f : α → InPlace ω ε σ γ} {w : ω} {s : σ} {c : γ} {u : σ} (h : (x >>= f) w s = (.ok c, u)) :
    ∃ a t, x w s = (.ok a, t) ∧ f a w t = (.ok c, u) := by
  rw [run_bind] at h
  cases hx : x w s with
  | mk r t =>
    rw [hx] at h
    cases r with
    | ok a => exact ⟨a, t, rfl, h⟩
    | error e => cases h

/-! ## With rollback -/

/-- The transaction with its writes undone where it fails. -/
def commit (x : InPlace ω ε σ α) : Tx ω ε σ α := fun w s =>
  match x w s with
  | (.ok a, t) => .ok (a, t)
  | (.error e, _) => .error e

theorem commit_ok {w : ω} {s : σ} {a : α} {t : σ} : x.commit w s = .ok (a, t) ↔ x w s = (.ok a, t) := by
  unfold commit
  cases x w s with
  | mk r u =>
    cases r with
    | ok b =>
      constructor
      · intro h
        cases h
        rfl
      · intro h
        cases h
        rfl
    | error e => exact ⟨fun h => (by cases h), fun h => (by cases h)⟩

@[simp] theorem commit_pure (a : α) : (pure a : InPlace ω ε σ α).commit = pure a := rfl

@[simp] theorem commit_bind (x : InPlace ω ε σ α) (f : α → InPlace ω ε σ γ) :
    (x >>= f).commit = x.commit >>= fun a => (f a).commit := by
  funext w s
  rw [Host.run_bind]
  unfold commit
  rw [run_bind]
  cases x w s with
  | mk r t => cases r <;> rfl

@[simp] theorem commit_ask : (ask : InPlace ω ε σ ω).commit = Host.ask := rfl

@[simp] theorem commit_look (f : σ → α) : (look f : InPlace ω ε σ α).commit = Host.look f := rfl

@[simp] theorem commit_alter (f : σ → σ) : (alter f : InPlace ω ε σ Unit).commit = Host.alter f := rfl

@[simp] theorem commit_require (c : Prop) [Decidable c] (e : ε) :
    (require c e : InPlace ω ε σ Unit).commit = Host.require c e := by
  unfold require Host.require
  split <;> rfl

/-! ## Nothing to undo -/

/-- `x` writes nothing. -/
def Reads (x : InPlace ω ε σ α) : Prop := ∀ w s, (x w s).2 = s

theorem Reads.pure (a : α) : Reads (pure a : InPlace ω ε σ α) := fun _ _ => rfl

theorem Reads.ask : Reads (ask : InPlace ω ε σ ω) := fun _ _ => rfl

theorem Reads.look (f : σ → α) : Reads (look f : InPlace ω ε σ α) := fun _ _ => rfl

theorem Reads.require (c : Prop) [Decidable c] (e : ε) : Reads (require c e : InPlace ω ε σ Unit) := by
  intro w s
  unfold InPlace.require
  split <;> rfl

theorem Reads.bind {f : α → InPlace ω ε σ γ} (hx : Reads x) (hf : ∀ a, Reads (f a)) : Reads (x >>= f) := by
  intro w s
  have hsame := hx w s
  rw [run_bind]
  cases hrun : x w s with
  | mk r t =>
    rw [hrun] at hsame
    cases r with
    | ok a => exact (hf a w t).trans hsame
    | error e => exact hsame

/-- What follows a part that only reads runs from the same state. -/
theorem Reads.bind_ok {f : α → InPlace ω ε σ γ} {w : ω} {s : σ} {c : γ} {u : σ} (hx : Reads x)
    (h : (x >>= f) w s = (.ok c, u)) : ∃ a, x w s = (.ok a, s) ∧ f a w s = (.ok c, u) := by
  obtain ⟨a, t, hrun, hf⟩ := InPlace.bind_ok h
  have hsame := hx w s
  rw [hrun] at hsame
  cases (hsame : t = s)
  exact ⟨a, hrun, hf⟩

theorem require_ok {c : Prop} [Decidable c] {e : ε} {w : ω} {s t : σ} {u : Unit}
    (h : (require c e : InPlace ω ε σ Unit) w s = (.ok u, t)) : c := by
  unfold require at h
  split at h
  case isTrue hc => exact hc
  case isFalse => cases h

/-! ## Without rollback -/

/-- From here `x` returns with `Q`, or fails in a way that is let pass. -/
def Settles (pass : ε → Prop) (x : InPlace ω ε σ α) (w : ω) (s : σ) (Q : α → σ → Prop) : Prop :=
  match x w s with
  | (.ok a, t) => Q a t
  | (.error e, _) => pass e

section

variable {pass : ε → Prop} {w : ω} {s : σ}

theorem Settles.mono {x : InPlace ω ε σ α} {Q R : α → σ → Prop} (h : Settles pass x w s Q)
    (himp : ∀ a t, Q a t → R a t) : Settles pass x w s R := by
  unfold Settles at h ⊢
  split
  case h_1 hrun =>
    rw [hrun] at h
    exact himp _ _ h
  case h_2 hrun =>
    rw [hrun] at h
    exact h

theorem Settles.and {x : InPlace ω ε σ α} {Q R : α → σ → Prop} (h : Settles pass x w s Q)
    (h' : Settles pass x w s R) : Settles pass x w s fun a t => Q a t ∧ R a t := by
  unfold Settles at h h' ⊢
  split
  case h_1 hrun =>
    rw [hrun] at h h'
    exact ⟨h, h'⟩
  case h_2 hrun =>
    rw [hrun] at h
    exact h

theorem settles_bind (x : InPlace ω ε σ α) (f : α → InPlace ω ε σ γ) (Q : γ → σ → Prop) :
    Settles pass (x >>= f) w s Q ↔ Settles pass x w s fun a t => Settles pass (f a) w t Q := by
  unfold Settles
  rw [run_bind]
  cases x w s with
  | mk r t => cases r <;> rfl

@[simp] theorem settles_pure (a : α) (Q : α → σ → Prop) :
    Settles pass (pure a : InPlace ω ε σ α) w s Q ↔ Q a s := Iff.rfl

@[simp] theorem settles_ask (Q : ω → σ → Prop) : Settles pass (ask : InPlace ω ε σ ω) w s Q ↔ Q w s := Iff.rfl

@[simp] theorem settles_look (f : σ → α) (Q : α → σ → Prop) :
    Settles pass (look f : InPlace ω ε σ α) w s Q ↔ Q (f s) s := Iff.rfl

@[simp] theorem settles_alter (f : σ → σ) (Q : Unit → σ → Prop) :
    Settles pass (alter f : InPlace ω ε σ Unit) w s Q ↔ Q () (f s) := Iff.rfl

theorem settles_orFail {o : Option α} {a : α} (h : o = some a) (e : ε) (Q : α → σ → Prop) :
    Settles pass (orFail o e : InPlace ω ε σ α) w s Q ↔ Q a s := by
  rw [h]
  rfl

theorem settles_require {c : Prop} [Decidable c] (h : c) (e : ε) (Q : Unit → σ → Prop) :
    Settles pass (require c e : InPlace ω ε σ Unit) w s Q ↔ Q () s := by
  rw [require, if_pos h]
  rfl

/-- The outcome of a run that settles. -/
theorem Settles.of_run {x : InPlace ω ε σ α} {Q : α → σ → Prop} (h : Settles pass x w s Q) {r : Except ε α} {t : σ}
    (hrun : x w s = (r, t)) (hpass : ∀ e, r = .error e → ¬ pass e) : ∃ a, r = .ok a ∧ Q a t := by
  unfold Settles at h
  rw [hrun] at h
  cases r with
  | ok a => exact ⟨a, rfl, h⟩
  | error e => exact absurd h (hpass e rfl)

end

end InPlace

end Host
