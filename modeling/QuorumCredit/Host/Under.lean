import QuorumCredit.Host.Goes
/-!
# Another context

A function runs in the context it was written for. `under` runs it where that
context is made from another one and from the state, so that part of what the
function only reads may itself be stored.
-/

namespace Host

variable {ω ω' ε σ α γ : Type}

/-- Runs `x` in the context `f` makes. -/
def under (f : ω' → σ → ω) (x : Tx ω ε σ α) : Tx ω' ε σ α := fun w s => x (f w s) s

variable (f : ω' → σ → ω) (x : Tx ω ε σ α)

@[simp] theorem yields_under (w : ω') (s : σ) (Q : α → σ → Prop) :
    Yields (under f x) w s Q ↔ Yields x (f w s) s Q := Iff.rfl

@[simp] theorem goes_under (w : ω') (s : σ) (Q : α → σ → Prop) :
    Goes (under f x) w s Q ↔ Goes x (f w s) s Q := Iff.rfl

end Host
