import QuorumCredit.Host.Component
/-!
# What has happened in a run

`Occurred q h`: a call that `q` is about went through. And the rule for a property
that a run keeps exactly under a condition on its calls, where the proof that the
condition is enough needs more than the property itself.
-/

namespace Host

namespace Component

variable {W ι ω ε σ κ : Type} {C : Component W ι ω ε σ κ}

variable (C)

/-- The event is a call of the kind `q` that went through. -/
def Did (q : κ → Prop) (e : Situated W σ × Event W ι σ κ) : Prop := ∃ d ∈ C.done e.1 e.2, q d.1

/-- A call of the kind `q` has gone through. -/
def Occurred (q : κ → Prop) (h : List (Situated W σ × Event W ι σ κ)) : Prop := ∃ e ∈ h, C.Did q e

variable {C}

theorem did_call {s : Situated W σ} {signers : ι} {op : κ} {t : σ} (he : C.exec s signers op = some t)
    (q : κ → Prop) : C.Did q (s, .call signers op) ↔ q op := by
  rw [Did, done_call he]
  simp

theorem did_idle {s : Situated W σ} {e : Event W ι σ κ} (hnone : C.done s e = none) (q : κ → Prop) :
    ¬ C.Did q (s, e) := by
  simp [Did, hnone]

theorem not_occurred_nil (q : κ → Prop) : ¬ C.Occurred q [] := by
  rintro ⟨e, hmem, -⟩
  exact List.not_mem_nil hmem

theorem occurred_call {s : Situated W σ} {signers : ι} {op : κ} {t : σ} (he : C.exec s signers op = some t)
    (q : κ → Prop) (h : List (Situated W σ × Event W ι σ κ)) :
    C.Occurred q ((s, .call signers op) :: h) ↔ q op ∨ C.Occurred q h := by
  simp only [Occurred, List.mem_cons, or_and_right, exists_or, exists_eq_left, did_call he]

theorem occurred_idle {s : Situated W σ} {e : Event W ι σ κ} (hnone : C.done s e = none) (q : κ → Prop)
    (h : List (Situated W σ × Event W ι σ κ)) : C.Occurred q ((s, e) :: h) ↔ C.Occurred q h := by
  simp only [Occurred, List.mem_cons, or_and_right, exists_or, exists_eq_left, did_idle hnone, false_or]

/-- Where `I` is kept under `ok` and gives `P`, and a call after which `P` holds has
met `ok`, a run keeps `P` exactly when all its calls meet `ok`. -/
theorem always_iff_of_inv {ok : List (Situated W σ × Event W ι σ κ) → Situated W σ → κ → Prop}
    {I P : List (Situated W σ × Event W ι σ κ) → Situated W σ → Prop} {s₀ : Situated W σ} (h0 : I [] s₀)
    (hdone : ∀ {h s signers op t}, I h s → ok h s op → C.exec s signers op = some t →
      I ((s, .call signers op) :: h) ⟨s.world, t⟩)
    (hidle : ∀ {h s e s'}, I h s → C.done s e = none → s' = s ∨ C.drift s.world s.store s'.world s'.store →
      I ((s, e) :: h) s')
    (hkeeps : ∀ {h s}, I h s → P h s)
    (hmet : ∀ {h s signers op t}, I h s → C.exec s signers op = some t →
      P ((s, .call signers op) :: h) ⟨s.world, t⟩ → ok h s op)
    {h s} (hr : Run C.Step s₀ h s) : Always P h s ↔ Throughout (fun h => C.WhenDone (ok h)) h := by
  refine Run.always_iff_of_inv h0 hkeeps (step_inv (fun _ hi hok he => hdone hi hok he) hidle) ?_ hr
  intro h s e s' hr hi hst hafter
  rcases hst.cases with ⟨signers, op, rfl, he, hw⟩ | ⟨hnone, -⟩ | ⟨hnone, -⟩
  · obtain ⟨w, t⟩ := s'
    cases hw
    exact whenDone_call (hmet hi he hafter) signers
  · exact whenDone_idle hnone
  · exact whenDone_idle hnone

end Component

end Host
