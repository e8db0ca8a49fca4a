import Mathlib.Logic.Basic
/-!
# Transactions

A contract function runs inside one transaction: it reads a context that does
not change while it runs, updates a state, and either returns or fails. A
failing transaction leaves nothing behind. `Tx` is that monad. A function that
works on one part of the state has a type that says so, and `zoom` runs it on
the whole state: everything outside its part is then unchanged by its type,
with no frame lemma to prove.

`Yields` is partial correctness: every successful run ends in the
postcondition. `bind_ok` is the other direction, taking a successful run apart
step by step.
-/

namespace Host

/-- A transaction in context `ω` over state `σ`, failing with `ε`. -/
abbrev Tx (ω ε σ : Type) := ReaderT ω (StateT σ (Except ε))

variable {ω ε σ β α γ : Type}

/-- The context of the running transaction. -/
def ask : Tx ω ε σ ω := fun w s => .ok (w, s)

/-- A value read off the state. -/
def look (f : σ → α) : Tx ω ε σ α := fun _ s => .ok (f s, s)

/-- Replaces the state. -/
def alter (f : σ → σ) : Tx ω ε σ Unit := fun _ s => .ok ((), f s)

/-- Ends the transaction without an effect. -/
def fail (e : ε) : Tx ω ε σ α := fun _ _ => .error e

/-- Goes on only if `c` holds. -/
def require (c : Prop) [Decidable c] (e : ε) : Tx ω ε σ Unit :=
  if c then pure () else fail e

/-- The value of `o`, which must be there. -/
def orFail (o : Option α) (e : ε) : Tx ω ε σ α :=
  match o with
  | some a => pure a
  | none => fail e

/-- Runs `x`, but hands a failure that `catches` accepts to the caller instead
of ending the transaction. What `x` did before failing is undone. -/
def attempt (catches : ε → Option γ) (x : Tx ω ε σ α) : Tx ω ε σ (Except γ α) := fun w s =>
  match x w s with
  | .ok (a, s') => .ok (.ok a, s')
  | .error e =>
    match catches e with
    | some c => .ok (.error c, s)
    | none => .error e

/-- `β` is one component of `σ`. -/
class Part (σ : Type) (β : semiOutParam Type) where
  get : σ → β
  set : β → σ → σ
  get_set : ∀ b s, get (set b s) = b := by intros; rfl
  set_get : ∀ s, set (get s) s = s := by intros; rfl
  set_set : ∀ b b' s, set b' (set b s) = set b' s := by intros; rfl

/-- A transaction on one part, run on the whole. -/
def zoom [Part σ β] (x : Tx ω ε β α) : Tx ω ε σ α := fun w s =>
  match x w (Part.get s) with
  | .ok (a, b) => .ok (a, Part.set b s)
  | .error e => .error e

instance [Part σ β] : MonadLift (Tx ω ε β) (Tx ω ε σ) := ⟨zoom⟩

/-- A lift through several parts is one `zoom` for each. -/
@[simp] theorem lift_eq_zoom {m : Type → Type} [Part σ β] [MonadLiftT m (Tx ω ε β)] (x : m α) :
    (@monadLift m (Tx ω ε σ) (instMonadLiftTOfMonadLift m (Tx ω ε β) (Tx ω ε σ)) α x : Tx ω ε σ α)
      = zoom (monadLift x : Tx ω ε β α) := rfl

@[simp] theorem lift_self (x : Tx ω ε σ α) : (@monadLift _ _ (instMonadLiftT _) α x : Tx ω ε σ α) = x := rfl

/-! ## Running step by step -/

theorem run_bind (x : Tx ω ε σ α) (f : α → Tx ω ε σ γ) (w : ω) (s : σ) :
    (x >>= f) w s =
      match x w s with
      | .ok (a, t) => f a w t
      | .error e => .error e := by
  change (x w s >>= fun p => f p.1 w p.2) = _
  cases x w s <;> rfl

variable {x : Tx ω ε σ α} {w : ω} {s : σ}

theorem run_bind_ok {a : α} {t : σ} (h : x w s = .ok (a, t)) (f : α → Tx ω ε σ γ) : (x >>= f) w s = f a w t := by
  rw [run_bind, h]

theorem run_bind_error {e : ε} (h : x w s = .error e) (f : α → Tx ω ε σ γ) : (x >>= f) w s = .error e := by
  rw [run_bind, h]

theorem run_pure (a : α) (w : ω) (s : σ) : (pure a : Tx ω ε σ α) w s = .ok (a, s) := rfl

theorem run_ask (w : ω) (s : σ) : (ask : Tx ω ε σ ω) w s = .ok (w, s) := rfl

theorem run_look (f : σ → α) (w : ω) (s : σ) : (look f : Tx ω ε σ α) w s = .ok (f s, s) := rfl

theorem run_alter (f : σ → σ) (w : ω) (s : σ) : (alter f : Tx ω ε σ Unit) w s = .ok ((), f s) := rfl

theorem run_fail (e : ε) (w : ω) (s : σ) : (fail e : Tx ω ε σ α) w s = .error e := rfl

theorem run_require (c : Prop) [Decidable c] (e : ε) (w : ω) (s : σ) :
    (require c e : Tx ω ε σ Unit) w s = if c then .ok ((), s) else .error e := by
  unfold require; split <;> rfl

theorem run_zoom [Part σ β] (x : Tx ω ε β α) (w : ω) (s : σ) :
    (zoom x : Tx ω ε σ α) w s =
      match x w (Part.get s) with
      | .ok (a, b) => .ok (a, Part.set b s)
      | .error e => .error e := rfl

theorem zoom_of_ok [Part σ β] {x : Tx ω ε β α} {a : α} {b : β} (h : x w (Part.get s) = .ok (a, b)) :
    (zoom x : Tx ω ε σ α) w s = .ok (a, Part.set b s) := by
  rw [run_zoom, h]

theorem zoom_of_error [Part σ β] {x : Tx ω ε β α} {e : ε} (h : x w (Part.get s) = .error e) :
    (zoom x : Tx ω ε σ α) w s = .error e := by
  rw [run_zoom, h]

theorem attempt_ok {catches : ε → Option γ} {t : σ} {a : α} (h : x w s = .ok (a, t)) :
    attempt catches x w s = .ok (.ok a, t) := by
  simp only [attempt, h]

theorem attempt_error {catches : ε → Option γ} {e : ε} {c : γ} (h : x w s = .error e) (hc : catches e = some c) :
    attempt catches x w s = .ok (.error c, s) := by
  simp only [attempt, h, hc]

/-! ## A transaction on one part, step by step -/

theorem zoom_bind [Part σ β] (x : Tx ω ε β α) (f : α → Tx ω ε β γ) :
    (zoom (x >>= f) : Tx ω ε σ γ) = zoom x >>= fun a => zoom (f a) := by
  funext w s
  rw [run_zoom, run_bind, run_bind, run_zoom]
  cases x w (Part.get s) with
  | error e => rfl
  | ok p =>
    obtain ⟨a, b⟩ := p
    dsimp only
    rw [run_zoom, Part.get_set]
    cases f a w b with
    | error e => rfl
    | ok q => simp only [Part.set_set]

theorem zoom_pure [Part σ β] (a : α) : (zoom (pure a : Tx ω ε β α) : Tx ω ε σ α) = pure a := by
  funext w s
  simp only [run_zoom, run_pure, Part.set_get]

theorem zoom_ask [Part σ β] : (zoom (ask : Tx ω ε β ω) : Tx ω ε σ ω) = ask := by
  funext w s
  simp only [run_zoom, run_ask, Part.set_get]

theorem zoom_look [Part σ β] (f : β → α) :
    (zoom (look f : Tx ω ε β α) : Tx ω ε σ α) = look fun s => f (Part.get s) := by
  funext w s
  simp only [run_zoom, run_look, Part.set_get]

theorem zoom_alter [Part σ β] (f : β → β) :
    (zoom (alter f : Tx ω ε β Unit) : Tx ω ε σ Unit) = alter fun s => Part.set (f (Part.get s)) s := rfl

theorem zoom_require [Part σ β] (c : Prop) [Decidable c] (e : ε) :
    (zoom (require c e : Tx ω ε β Unit) : Tx ω ε σ Unit) = require c e := by
  unfold require
  split
  case isTrue => exact zoom_pure ()
  case isFalse => rfl

/-! ## Taking a successful run apart -/

theorem bind_ok {f : α → Tx ω ε σ γ} {w s c s'} (h : (x >>= f) w s = .ok (c, s')) :
    ∃ a t, x w s = .ok (a, t) ∧ f a w t = .ok (c, s') := by
  change (x w s >>= fun p => f p.1 w p.2) = _ at h
  cases hx : x w s with
  | error e => rw [hx] at h; cases h
  | ok p => rw [hx] at h; exact ⟨p.1, p.2, rfl, h⟩

theorem pure_ok {a b : α} {s' : σ} (h : (pure a : Tx ω ε σ α) w s = .ok (b, s')) : b = a ∧ s' = s := by
  cases h; exact ⟨rfl, rfl⟩

theorem require_ok {c : Prop} [Decidable c] {e : ε} {s' : σ} {u : Unit} (h : require c e w s = .ok (u, s')) :
    c ∧ s' = s := by
  unfold require at h
  split at h
  case isTrue hc => cases h; exact ⟨hc, rfl⟩
  case isFalse => cases h

theorem orFail_ok {o : Option α} {e : ε} {s' : σ} {a : α} (h : orFail o e w s = .ok (a, s')) : o = some a ∧ s' = s := by
  cases o with
  | none => cases h
  | some b => cases h; exact ⟨rfl, rfl⟩

theorem zoom_ok [Part σ β] {x : Tx ω ε β α} {s' : σ} {a : α} (h : zoom x w s = .ok (a, s')) :
    ∃ b, x w (Part.get s) = .ok (a, b) ∧ s' = Part.set b s := by
  unfold zoom at h
  cases hx : x w (Part.get s) with
  | error e => rw [hx] at h; cases h
  | ok p => rw [hx] at h; cases h; exact ⟨p.2, rfl, rfl⟩

/-! ## Partial correctness -/

/-- Every successful run of `x` ends with a result and a state satisfying `Q`. -/
def Yields (x : Tx ω ε σ α) (w : ω) (s : σ) (Q : α → σ → Prop) : Prop :=
  ∀ a s', x w s = .ok (a, s') → Q a s'

theorem Yields.mono {w s} {Q R : α → σ → Prop} (h : Yields x w s Q) (hi : ∀ a s', Q a s' → R a s') : Yields x w s R :=
  fun a s' hx => hi a s' (h a s' hx)

theorem Yields.and {w s} {Q R : α → σ → Prop} (hq : Yields x w s Q) (hr : Yields x w s R) :
    Yields x w s fun a t => Q a t ∧ R a t :=
  fun a s' hx => ⟨hq a s' hx, hr a s' hx⟩

theorem yields_true (x : Tx ω ε σ α) (w s) : Yields x w s fun _ _ => True := fun _ _ _ => trivial

/-- What is known of the run is known of every run. -/
theorem Yields.of_run {w s t} (h : ∃ a, x w s = .ok (a, t)) : Yields x w s fun _ s' => s' = t := by
  obtain ⟨a, ha⟩ := h
  intro b s' hb
  rw [ha] at hb
  cases hb; rfl

/-- A run that is known, with its result. -/
theorem Yields.of_run' {w s a t} (h : x w s = .ok (a, t)) : Yields x w s fun b s' => b = a ∧ s' = t := by
  intro b s' hb
  rw [h] at hb
  cases hb
  exact ⟨rfl, rfl⟩

@[simp] theorem yields_pure (a : α) (w : ω) (s : σ) (Q : α → σ → Prop) :
    Yields (pure a : Tx ω ε σ α) w s Q ↔ Q a s :=
  ⟨fun h => h a s rfl, fun h b s' hb => by cases hb; exact h⟩

@[simp] theorem yields_bind (x : Tx ω ε σ α) (f : α → Tx ω ε σ γ) (w s) (Q : γ → σ → Prop) :
    Yields (x >>= f) w s Q ↔ Yields x w s fun a t => Yields (f a) w t Q := by
  constructor
  · intro h a t hx c s' hf
    refine h c s' ?_
    change (x w s >>= fun p => f p.1 w p.2) = _
    rw [hx]; exact hf
  · intro h c s' hb
    obtain ⟨a, t, hx, hf⟩ := bind_ok hb
    exact h a t hx c s' hf

@[simp] theorem yields_map (x : Tx ω ε σ α) (f : α → γ) (w s) (Q : γ → σ → Prop) :
    Yields (f <$> x) w s Q ↔ Yields x w s fun a t => Q (f a) t := by
  rw [← bind_pure_comp, yields_bind]
  simp only [yields_pure]

@[simp] theorem yields_ask (w : ω) (s : σ) (Q : ω → σ → Prop) : Yields (ask : Tx ω ε σ ω) w s Q ↔ Q w s :=
  ⟨fun h => h w s rfl, fun h b s' hb => by cases hb; exact h⟩

@[simp] theorem yields_look (f : σ → α) (w : ω) (s : σ) (Q : α → σ → Prop) :
    Yields (look f : Tx ω ε σ α) w s Q ↔ Q (f s) s :=
  ⟨fun h => h (f s) s rfl, fun h b s' hb => by cases hb; exact h⟩

@[simp] theorem yields_alter (f : σ → σ) (w : ω) (s : σ) (Q : Unit → σ → Prop) :
    Yields (alter f : Tx ω ε σ Unit) w s Q ↔ Q () (f s) :=
  ⟨fun h => h () (f s) rfl, fun h b s' hb => by cases hb; exact h⟩

@[simp] theorem yields_fail (e : ε) (w : ω) (s : σ) (Q : α → σ → Prop) : Yields (fail e : Tx ω ε σ α) w s Q :=
  fun _ _ h => by cases h

@[simp] theorem yields_require (c : Prop) [Decidable c] (e : ε) (w : ω) (s : σ) (Q : Unit → σ → Prop) :
    Yields (require c e : Tx ω ε σ Unit) w s Q ↔ (c → Q () s) := by
  unfold require
  split
  case isTrue hc => simp [hc]
  case isFalse hc => simp [hc]

@[simp] theorem yields_orFail (o : Option α) (e : ε) (w : ω) (s : σ) (Q : α → σ → Prop) :
    Yields (orFail o e : Tx ω ε σ α) w s Q ↔ ∀ a, o = some a → Q a s := by
  cases o <;> simp [orFail]

theorem yields_ite (c : Prop) [Decidable c] (x y : Tx ω ε σ α) (w s) (Q : α → σ → Prop) :
    Yields (if c then x else y) w s Q ↔ (c → Yields x w s Q) ∧ (¬ c → Yields y w s Q) := by
  split <;> simp [*]

@[simp] theorem yields_zoom [Part σ β] (x : Tx ω ε β α) (w : ω) (s : σ) (Q : α → σ → Prop) :
    Yields (zoom x) w s Q ↔ Yields x w (Part.get s) fun a b => Q a (Part.set b s) := by
  constructor
  · intro h a b hx
    refine h a _ ?_
    unfold zoom; rw [hx]
  · intro h a s' hz
    obtain ⟨b, hx, rfl⟩ := zoom_ok hz
    exact h a b hx

/-- The rules for the steps of a transaction, to be given to `simp` together. -/
theorem yields_steps :
    (∀ {α : Type} (a : α) w s (Q : α → σ → Prop), Yields (pure a : Tx ω ε σ α) w s Q ↔ Q a s) ∧
    (∀ {α γ : Type} (x : Tx ω ε σ α) (f : α → Tx ω ε σ γ) w s (Q : γ → σ → Prop),
      Yields (x >>= f) w s Q ↔ Yields x w s fun a t => Yields (f a) w t Q) ∧
    (∀ w s (Q : ω → σ → Prop), Yields (ask : Tx ω ε σ ω) w s Q ↔ Q w s) ∧
    (∀ {α : Type} (f : σ → α) w s (Q : α → σ → Prop), Yields (look f : Tx ω ε σ α) w s Q ↔ Q (f s) s) ∧
    (∀ (f : σ → σ) w s (Q : Unit → σ → Prop), Yields (alter f : Tx ω ε σ Unit) w s Q ↔ Q () (f s)) ∧
    (∀ (c : Prop) [Decidable c] (e : ε) w s (Q : Unit → σ → Prop),
      Yields (require c e : Tx ω ε σ Unit) w s Q ↔ (c → Q () s)) ∧
    ∀ {α : Type} (o : Option α) (e : ε) w s (Q : α → σ → Prop),
      Yields (orFail o e : Tx ω ε σ α) w s Q ↔ ∀ a, o = some a → Q a s :=
  ⟨yields_pure, yields_bind, yields_ask, yields_look, yields_alter, yields_require, yields_orFail⟩

/-- The rules for a transaction on one part of the state, likewise. -/
theorem yields_parts :
    (∀ {α β : Type} [Part σ β] (x : Tx ω ε β α) w s (Q : α → σ → Prop),
      Yields (zoom x) w s Q ↔ Yields x w (Part.get s) fun a b => Q a (Part.set b s)) ∧
    (∀ {α β : Type} {m : Type → Type} [Part σ β] [MonadLiftT m (Tx ω ε β)] (x : m α),
      (@monadLift m (Tx ω ε σ) (instMonadLiftTOfMonadLift m (Tx ω ε β) (Tx ω ε σ)) α x : Tx ω ε σ α)
        = zoom (monadLift x : Tx ω ε β α)) ∧
    ∀ {α : Type} (x : Tx ω ε σ α), (@monadLift _ _ (instMonadLiftT _) α x : Tx ω ε σ α) = x :=
  ⟨yields_zoom, lift_eq_zoom, lift_self⟩

/-- Where the postcondition does not care what happened to the part. -/
theorem yields_zoom_any [Part σ β] {x : Tx ω ε β α} {Q : α → σ → Prop} (h : ∀ a (b : β), Q a (Part.set b s)) :
    Yields (zoom x) w s Q :=
  (yields_zoom x w s Q).2 fun a b _ => h a b

/-! ## Frames

`Keeps f x`: no successful run of `x` changes what `f` reads. It is a class, so
that the instances below find it for a whole body of code by its shape. The search
counts every statement twice over, which is what a larger `synthInstance.maxSize` is for. -/

class Keeps (f : σ → γ) (x : Tx ω ε σ α) : Prop where
  out : ∀ w s, Yields x w s fun _ t => f t = f s

/-- `f` does not look at the part `β`. -/
class Apart (f : σ → γ) (β : Type) [Part σ β] : Prop where
  out : ∀ (b : β) s, f (Part.set b s) = f s := by intros; rfl

/-- `f` looks at nothing but the part `β`, the way `g` does. -/
class Inside (f : σ → γ) (β : Type) [Part σ β] (g : outParam (β → γ)) : Prop where
  out : ∀ s, f s = g (Part.get s) := by intros; rfl

section Keeps

variable {f : σ → γ} {δ : Type}

instance (a : α) : Keeps f (pure a : Tx ω ε σ α) := ⟨fun w s => (yields_pure a w s _).2 rfl⟩

instance : Keeps f (ask : Tx ω ε σ ω) := ⟨fun w s => (yields_ask w s _).2 rfl⟩

instance (g : σ → α) : Keeps f (look g : Tx ω ε σ α) := ⟨fun w s => (yields_look g w s _).2 rfl⟩

instance (e : ε) : Keeps f (fail e : Tx ω ε σ α) := ⟨fun w s => yields_fail e w s _⟩

instance (c : Prop) [Decidable c] (e : ε) : Keeps f (require c e : Tx ω ε σ Unit) :=
  ⟨fun w s => (yields_require c e w s _).2 fun _ => rfl⟩

instance (o : Option α) (e : ε) : Keeps f (orFail o e : Tx ω ε σ α) :=
  ⟨fun w s => (yields_orFail o e w s _).2 fun _ _ => rfl⟩

instance (x : Tx ω ε σ α) (g : α → Tx ω ε σ δ) [hx : Keeps f x] [hg : ∀ a, Keeps f (g a)] : Keeps f (x >>= g) where
  out w s := (yields_bind x g w s _).2 <| (hx.out w s).mono fun a t ht =>
    ((hg a).out w t).mono fun _ _ hu => hu.trans ht

instance (c : Prop) [Decidable c] (x y : Tx ω ε σ α) [hx : Keeps f x] [hy : Keeps f y] :
    Keeps f (if c then x else y) where
  out w s := (yields_ite c x y w s _).2 ⟨fun _ => hx.out w s, fun _ => hy.out w s⟩

instance [Part σ β] [h : Apart f β] (x : Tx ω ε β α) : Keeps f (zoom x : Tx ω ε σ α) where
  out _ s := yields_zoom_any fun _ b => h.out b s

instance [Part σ β] {g : β → γ} [h : Inside f β g] (x : Tx ω ε β α) [hx : Keeps g x] :
    Keeps f (zoom x : Tx ω ε σ α) where
  out w s := (yields_zoom x w s _).2 <| (hx.out w _).mono fun a b hb => by
    rw [h.out, h.out, Part.get_set, hb]

/-- A part that is left as it is leaves everything as it is. -/
instance [Part σ β] (x : Tx ω ε β α) [h : Keeps (id : β → β) x] : Keeps f (zoom x : Tx ω ε σ α) where
  out w s := (yields_zoom x w s _).2 <| (h.out w _).mono fun a b hb => by
    rw [id, id] at hb
    rw [hb, Part.set_get]

instance {m : Type → Type} [Part σ β] [MonadLiftT m (Tx ω ε β)] (x : m α)
    [Keeps (id : β → β) (monadLift x : Tx ω ε β α)] :
    Keeps f (@monadLift m (Tx ω ε σ) (instMonadLiftTOfMonadLift m (Tx ω ε β) (Tx ω ε σ)) α x : Tx ω ε σ α) :=
  inferInstanceAs (Keeps f (zoom (monadLift x : Tx ω ε β α) : Tx ω ε σ α))

instance {m : Type → Type} [Part σ β] [MonadLiftT m (Tx ω ε β)] {g : β → γ} [Inside f β g] (x : m α)
    [Keeps g (monadLift x : Tx ω ε β α)] :
    Keeps f (@monadLift m (Tx ω ε σ) (instMonadLiftTOfMonadLift m (Tx ω ε β) (Tx ω ε σ)) α x : Tx ω ε σ α) :=
  inferInstanceAs (Keeps f (zoom (monadLift x : Tx ω ε β α) : Tx ω ε σ α))

instance (x : Tx ω ε σ α) [h : Keeps f x] : Keeps f (@monadLift _ _ (instMonadLiftT _) α x : Tx ω ε σ α) := h

instance {m : Type → Type} [Part σ β] [Apart f β] [MonadLiftT m (Tx ω ε β)] (x : m α) :
    Keeps f (@monadLift m (Tx ω ε σ) (instMonadLiftTOfMonadLift m (Tx ω ε β) (Tx ω ε σ)) α x : Tx ω ε σ α) :=
  inferInstanceAs (Keeps f (zoom (monadLift x : Tx ω ε β α) : Tx ω ε σ α))

instance (catches : ε → Option δ) (x : Tx ω ε σ α) [hx : Keeps f x] : Keeps f (attempt catches x) where
  out w s := by
    intro r t h
    unfold attempt at h
    cases hr : x w s with
    | ok p => rw [hr] at h; cases h; exact hx.out w s p.1 p.2 hr
    | error e =>
      rw [hr] at h
      cases hc : catches e with
      | none => simp [hc] at h
      | some c => simp only [hc] at h; cases h; rfl

/-- After a step that keeps `f` and `g`, whatever else it did. -/
theorem yields_keeps₂ (f : σ → γ) (g : σ → δ) {x : Tx ω ε σ α} [hf : Keeps f x] [hg : Keeps g x] {w : ω} {s : σ}
    {Q : α → σ → Prop} (h : ∀ a t, f t = f s → g t = g s → Q a t) : Yields x w s Q :=
  fun a t hx => h a t (hf.out w s a t hx) (hg.out w s a t hx)

/-- After a step that keeps `f`, whatever else it did. -/
theorem yields_keeps (f : σ → γ) {x : Tx ω ε σ α} [hk : Keeps f x] {w : ω} {s : σ} {Q : α → σ → Prop}
    (h : ∀ a t, f t = f s → Q a t) : Yields x w s Q :=
  (hk.out w s).mono h

end Keeps

theorem yields_attempt (catches : ε → Option γ) (x : Tx ω ε σ α) (w s) (Q : Except γ α → σ → Prop)
    (hok : Yields x w s fun a t => Q (.ok a) t) (herr : ∀ c, Q (.error c) s) :
    Yields (attempt catches x) w s Q := by
  intro r s' h
  unfold attempt at h
  cases hx : x w s with
  | ok p => rw [hx] at h; cases h; exact hok _ _ hx
  | error e =>
    rw [hx] at h
    cases hc : catches e with
    | none => simp [hc] at h
    | some c => simp only [hc] at h; cases h; exact herr c

end Host
