import QuorumCredit.Host.Component
/-!
# Tables that are carried over

A table carries over to a later one if each of its entries is still there, as something
it may have become: often, an entry that has left none of the stages it had reached. What
every step carries over, every run does.
-/

namespace Host

open Function

section

variable {κ β : Type} {R : β → β → Prop} {f g : κ → Option β}

/-- Every entry of the first table is in the second, where it is what `R` lets it become. -/
def Carries (R : β → β → Prop) (f g : κ → Option β) : Prop := ∀ k x, f k = some x → ∃ y, g k = some y ∧ R x y

theorem Carries.refl (hR : ∀ x, R x x) (f : κ → Option β) : Carries R f f := fun _ x hx => ⟨x, hx, hR x⟩

theorem Carries.trans (hR : ∀ {x y z}, R x y → R y z → R x z) {u : κ → Option β} (h : Carries R f g)
    (h' : Carries R g u) : Carries R f u := by
  intro k x hx
  obtain ⟨y, hy, hxy⟩ := h k x hx
  obtain ⟨z, hz, hyz⟩ := h' k y hy
  exact ⟨z, hz, hR hxy hyz⟩

theorem Carries.put [DecidableEq κ] (hR : ∀ x, R x x) {k : κ} {y : β} (h : ∀ x, f k = some x → R x y) :
    Carries R f (update f k (some y)) := by
  intro k' x hx
  by_cases hk : k' = k
  · subst hk
    exact ⟨y, update_self .., h x hx⟩
  · exact ⟨x, (update_of_ne hk ..).trans hx, hR x⟩

/-- An entry is written where there was none. -/
theorem Carries.add [DecidableEq κ] (hR : ∀ x, R x x) {k : κ} (hk : f k = none) (y : β) :
    Carries R f (update f k (some y)) :=
  .put hR fun x hx => by
    rw [hk] at hx
    cases hx

/-- An entry is written over one that may become it. -/
theorem Carries.set [DecidableEq κ] (hR : ∀ x, R x x) {k : κ} {x y : β} (hk : f k = some x) (h : R x y) :
    Carries R f (update f k (some y)) :=
  .put hR fun x' hx => by
    rw [hk] at hx
    cases hx
    exact h

/-! ## Stages -/

/-- A stage of an entry, that it does not leave, and the part of the entry it settles. -/
structure Stage (β : Type) where
  τ : Type
  reached : β → Prop
  part : β → τ

/-- The stages that `x` has reached, `y` has reached, with the same part settled. -/
def Continues (stages : List (Stage β)) (x y : β) : Prop :=
  ∀ g ∈ stages, g.reached x → g.reached y ∧ g.part y = g.part x

variable {stages : List (Stage β)}

theorem Continues.refl (x : β) : Continues stages x x := fun _ _ hx => ⟨hx, rfl⟩

theorem Continues.trans {x y z : β} (h : Continues stages x y) (h' : Continues stages y z) : Continues stages x z := by
  intro g hg hx
  obtain ⟨hy, hxy⟩ := h g hg hx
  obtain ⟨hz, hyz⟩ := h' g hg hy
  exact ⟨hz, hyz.trans hxy⟩

end

/-- A relation that every step keeps to relates each state a run passes to the one it reaches. -/
theorem Run.along {σ ℓ : Type} {step : σ → ℓ → σ → Prop} {s₀ : σ} {Q : σ → σ → Prop}
    (htrans : ∀ {x y z}, Q x y → Q y z → Q x z)
    (hstep : ∀ {h s l s'}, Run step s₀ h s → step s l s' → Q s s') {h s} (hr : Run step s₀ h s) :
    Along (fun s' _ => Q s' s) h := by
  induction hr with
  | nil => exact List.forall_mem_nil _
  | snoc hr hst ih =>
    have hq := hstep hr hst
    exact List.forall_mem_cons.2 ⟨hq, fun e he => htrans (ih e he) hq⟩

/-- The same of what the calls of a component keep to, and of what happens elsewhere. -/
theorem Component.along {W ι ω ε σ κ : Type} {C : Component W ι ω ε σ κ} {s₀ : Situated W σ} {Q : σ → σ → Prop}
    (hrefl : ∀ x, Q x x) (htrans : ∀ {x y z}, Q x y → Q y z → Q x z)
    (hcall : ∀ {h s signers op t}, Run C.Step s₀ h s → C.exec s signers op = some t → Q s.store t)
    (hdrift : ∀ {w x w' x'}, C.drift w x w' x' → Q x x') {h s} (hr : Run C.Step s₀ h s) :
    Along (fun s' _ => Q s'.store s.store) h := by
  refine Run.along (Q := fun s s' => Q s.store s'.store) htrans (fun hr hst => ?_) hr
  rcases hst.cases with ⟨signers, op, -, he, -⟩ | ⟨-, rfl⟩ | ⟨-, hd⟩
  · exact hcall hr he
  · exact hrefl _
  · exact hdrift hd

end Host
