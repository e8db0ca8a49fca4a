import QuorumCredit.Host.Tx
/-!
# Invariants of a transaction

`Stable P x`: a successful run of `x` from a state with `P` ends in one. It is a
class like `Keeps`, for predicates that some steps establish again instead of
leaving alone what they look at; a step of that kind gets its own instance.
-/

namespace Host

variable {ω ε σ β α γ : Type} {P : σ → Prop}

class Stable (P : σ → Prop) (x : Tx ω ε σ α) : Prop where
  out : ∀ w s, P s → Yields x w s fun _ t => P t

instance (x : Tx ω ε σ α) (f : α → Tx ω ε σ γ) [hx : Stable P x] [hf : ∀ a, Stable P (f a)] : Stable P (x >>= f) where
  out w s h := (yields_bind x f w s _).2 <| (hx.out w s h).mono fun a t ht => (hf a).out w t ht

instance (c : Prop) [Decidable c] (x y : Tx ω ε σ α) [hx : Stable P x] [hy : Stable P y] :
    Stable P (if c then x else y) where
  out w s h := (yields_ite c x y w s _).2 ⟨fun _ => hx.out w s h, fun _ => hy.out w s h⟩

instance [Part σ β] {Q : β → Prop} [hp : Inside P β Q] (x : Tx ω ε β α) [hx : Stable Q x] :
    Stable P (zoom x : Tx ω ε σ α) where
  out w s h := (yields_zoom x w s _).2 <| (hx.out w _ (hp.out s ▸ h)).mono fun a b hb => by
    rw [hp.out, Part.get_set]
    exact hb

instance {m : Type → Type} [Part σ β] [MonadLiftT m (Tx ω ε β)] {Q : β → Prop} [Inside P β Q] (x : m α)
    [Stable Q (monadLift x : Tx ω ε β α)] :
    Stable P (@monadLift m (Tx ω ε σ) (instMonadLiftTOfMonadLift m (Tx ω ε β) (Tx ω ε σ)) α x : Tx ω ε σ α) :=
  inferInstanceAs (Stable P (zoom (monadLift x : Tx ω ε β α) : Tx ω ε σ α))

instance (x : Tx ω ε σ α) [h : Stable P x] : Stable P (@monadLift _ _ (instMonadLiftT _) α x : Tx ω ε σ α) := h

end Host
