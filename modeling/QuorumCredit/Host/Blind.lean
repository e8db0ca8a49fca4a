import QuorumCredit.Host.Tx
/-!
# Noninterference

A part of the state that a transaction may write but never reads cannot show in
what it returns, in whether it fails, or in the rest of the state. `Blind β x`
says so by comparing two runs of `x` from states that differ in the part `β`
only. Like `Keeps` it is a class, found from the shape of the code. Where a
transaction does read the part, `alike_keeps` leads the comparison up to there.
-/

namespace Host

variable {ω ε σ β ζ α γ : Type}

/-- Two outcomes alike but for the part `β`: the same result in states that differ
in `β` only, or the same failure. -/
inductive Alike (β : Type) [Part σ β] : Except ε (α × σ) → Except ε (α × σ) → Prop
  | ok {a t} (b : β) : Alike β (.ok (a, t)) (.ok (a, Part.set b t))
  | error {e} : Alike β (.error e) (.error e)

/-- What `x` does outside the part `β` does not depend on that part. -/
class Blind (β : Type) [Part σ β] (x : Tx ω ε σ α) : Prop where
  out : ∀ w s (b : β), Alike β (x w s) (x w (Part.set b s))

/-- Two parts side by side. -/
class Beside (σ β ζ : Type) [Part σ β] [Part σ ζ] : Prop where
  get_set : ∀ (b : β) (s : σ), (Part.get (Part.set b s) : ζ) = Part.get s := by intros; rfl
  set_comm : ∀ (b : β) (z : ζ) (s : σ), Part.set z (Part.set b s) = Part.set b (Part.set z s) := by intros; rfl

section Rules

variable [Part σ β]

theorem Alike.refl (r : Except ε (α × σ)) : Alike β r r := by
  rcases r with e | ⟨a, t⟩
  · exact .error
  · have h : Alike β (.ok (a, t) : Except ε (α × σ)) (.ok (a, Part.set (Part.get t : β) t)) := .ok _
    rwa [Part.set_get] at h

variable {f g : α → Tx ω ε σ γ}

/-- Sequencing: the first halves alike, and the second halves from whatever states these end in. -/
theorem Alike.bind {x y : Tx ω ε σ α} {w : ω} {s s' : σ} (hx : Alike β (x w s) (y w s'))
    (hf : ∀ a t (b : β), Alike β (f a w t) (g a w (Part.set b t))) : Alike β ((x >>= f) w s) ((y >>= g) w s') := by
  rw [run_bind, run_bind]
  generalize x w s = r, y w s' = r' at hx
  cases hx with
  | ok b => exact hf _ _ b
  | error => exact .error

/-- After a step that neither reads nor writes the part, the states still differ the way they did. -/
theorem alike_keeps {R : Except ε (γ × σ) → Except ε (γ × σ) → Prop} (hR : ∀ r, R r r) {x : Tx ω ε σ α}
    [hx : Blind β x] {p : σ → β} [hk : Keeps p x] (hp : ∀ s, p s = Part.get s) {w : ω} {s : σ} {b : β}
    (h : ∀ a t, x w s = .ok (a, t) → p t = p s → R (f a w t) (g a w (Part.set b t))) :
    R ((x >>= f) w s) ((x >>= g) w (Part.set b s)) := by
  have hout := hx.out w s b
  rw [run_bind, run_bind]
  cases hr : x w s with
  | error e =>
    cases hr' : x w (Part.set b s) with
    | error e' =>
      rw [hr, hr'] at hout
      cases hout
      exact hR _
    | ok q => rw [hr, hr'] at hout; cases hout
  | ok q =>
    cases hr' : x w (Part.set b s) with
    | error e' => rw [hr, hr'] at hout; cases hout
    | ok q' =>
      have hkept := hk.out w _ _ _ hr'
      rw [hr, hr'] at hout
      obtain ⟨a, t⟩ := q
      cases hout with
      | ok b' =>
        rw [hp, hp, Part.get_set, Part.get_set] at hkept
        rw [hkept]
        exact h a t hr (hk.out w s a t hr)

omit [Part σ β] in
/-- After first halves that are the same run. -/
theorem alike_same {R : Except ε (γ × σ) → Except ε (γ × σ) → Prop} (hR : ∀ r, R r r) {x y : Tx ω ε σ α} {w : ω}
    {s : σ} (hx : x w s = y w s) (h : ∀ a t, x w s = .ok (a, t) → R (f a w t) (g a w t)) :
    R ((x >>= f) w s) ((y >>= g) w s) := by
  rw [run_bind, run_bind, ← hx]
  cases hr : x w s with
  | error e => exact hR _
  | ok p => exact h p.1 p.2 hr

/-- Two transactions on the part itself that return the same, or fail the same. -/
theorem alike_zoom {x y : Tx ω ε β α} {w : ω} {s : σ}
    (h : (x w (Part.get s)).map Prod.fst = (y w (Part.get s)).map Prod.fst) :
    Alike β ((zoom x : Tx ω ε σ α) w s) ((zoom y : Tx ω ε σ α) w s) := by
  rw [run_zoom, run_zoom]
  rcases hx : x w (Part.get s) with e | ⟨a, b⟩ <;> rcases hy : y w (Part.get s) with e' | ⟨a', b'⟩ <;>
    rw [hx, hy] at h <;> cases h
  · exact .error
  · have hset : Alike β (.ok (a, Part.set b s) : Except ε (α × σ)) (.ok (a, Part.set b' (Part.set b s))) := .ok b'
    rwa [Part.set_set] at hset

omit [Part σ β] in
/-- Sequencing, where the second halves return the same, or fail the same, from one state. -/
theorem map_fst_bind {x : Tx ω ε σ α} {w : ω} {s : σ} (h : ∀ a t, (f a w t).map Prod.fst = (g a w t).map Prod.fst) :
    ((x >>= f) w s).map Prod.fst = ((x >>= g) w s).map Prod.fst := by
  rw [run_bind, run_bind]
  cases x w s with
  | error e => rfl
  | ok p => exact h p.1 p.2

instance (a : α) : Blind β (pure a : Tx ω ε σ α) := ⟨fun _ _ b => .ok b⟩

instance : Blind β (ask : Tx ω ε σ ω) := ⟨fun _ _ b => .ok b⟩

instance (e : ε) : Blind β (fail e : Tx ω ε σ α) := ⟨fun _ _ _ => .error⟩

instance (g : σ → α) [h : Apart g β] : Blind β (look g : Tx ω ε σ α) := by
  refine ⟨fun w s b => ?_⟩
  rw [run_look, run_look, h.out]
  exact .ok b

instance (c : Prop) [Decidable c] (e : ε) : Blind β (require c e : Tx ω ε σ Unit) := by
  unfold require; split <;> infer_instance

instance (o : Option α) (e : ε) : Blind β (orFail o e : Tx ω ε σ α) := by
  unfold orFail; split <;> infer_instance

instance (x : Tx ω ε σ α) (f : α → Tx ω ε σ γ) [hx : Blind β x] [hf : ∀ a, Blind β (f a)] : Blind β (x >>= f) :=
  ⟨fun w s b => (hx.out w s b).bind fun a t b' => (hf a).out w t b'⟩

/-- Writing the part itself. -/
instance (f : β → β) : Blind β (zoom (alter f) : Tx ω ε σ Unit) := by
  refine ⟨fun w s b => ?_⟩
  rw [run_zoom, run_zoom, run_alter, run_alter, Part.get_set]
  have hset : Alike β (.ok ((), Part.set (f (Part.get s)) s) : Except ε (Unit × σ))
    (.ok ((), Part.set (f b) (Part.set (f (Part.get s)) s))) := .ok (f b)
  rw [Part.set_set] at hset
  simpa only [Part.set_set] using hset

/-- A transaction on another part. -/
instance [Part σ ζ] [h : Beside σ β ζ] (x : Tx ω ε ζ α) : Blind β (zoom x : Tx ω ε σ α) := by
  refine ⟨fun w s b => ?_⟩
  rw [run_zoom, run_zoom, h.get_set]
  cases x w (Part.get s) with
  | error e => exact .error
  | ok p =>
    simp only [h.set_comm]
    exact .ok b

instance {m : Type → Type} [Part σ ζ] [Beside σ β ζ] [MonadLiftT m (Tx ω ε ζ)] (x : m α) :
    Blind β (@monadLift m (Tx ω ε σ) (instMonadLiftTOfMonadLift m (Tx ω ε ζ) (Tx ω ε σ)) α x : Tx ω ε σ α) :=
  inferInstanceAs (Blind β (zoom (monadLift x : Tx ω ε ζ α) : Tx ω ε σ α))

end Rules

end Host
