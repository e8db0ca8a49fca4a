import QuorumCredit.Host.Component
/-!
# Scripts with a clock

A run written down: calls, and waits between them. Waiting changes the world by
`later` and nothing in the storage, which the component has to allow.
-/

namespace Host

namespace Component

variable {W ι ω ε σ κ : Type} (C : Component W ι ω ε σ κ) (later : W → Nat → W)

inductive Act (ι κ : Type) where
  | call (signers : ι) (op : κ)
  | wait (secs : Nat)

/-- What the act makes of the state, and the event it is. -/
def act (s : Situated W σ) : Act ι κ → Event W ι σ κ × Situated W σ
  | .call signers op => (.call signers op, C.after s signers op)
  | .wait secs => (.elsewhere (later s.world secs) s.store, ⟨later s.world secs, s.store⟩)

/-- The state after the acts, one after another. -/
def perform (s : Situated W σ) : List (Act ι κ) → Situated W σ
  | [] => s
  | a :: acts => perform (C.act later s a).2 acts

/-- The history of the acts, added to `h`. -/
def record (s : Situated W σ) (h : List (Situated W σ × Event W ι σ κ)) :
    List (Act ι κ) → List (Situated W σ × Event W ι σ κ)
  | [] => h
  | a :: acts => record (C.act later s a).2 ((s, (C.act later s a).1) :: h) acts

variable {C}

theorem step_act (hlater : ∀ w x n, C.drift w x (later w n) x) (s : Situated W σ) (a : Act ι κ) :
    C.Step s (C.act later s a).1 (C.act later s a).2 := by
  cases a with
  | call signers op => exact .call s signers op
  | wait secs => exact .elsewhere (hlater s.world s.store secs)

theorem run_perform (hlater : ∀ w x n, C.drift w x (later w n) x) {s₀ s : Situated W σ}
    {h : List (Situated W σ × Event W ι σ κ)} (hr : Run C.Step s₀ h s) (acts : List (Act ι κ)) :
    Run C.Step s₀ (C.record later s h acts) (C.perform later s acts) := by
  induction acts generalizing h s with
  | nil => exact hr
  | cons a acts ih => exact ih (hr.snoc (step_act later hlater s a))

end Component

end Host
