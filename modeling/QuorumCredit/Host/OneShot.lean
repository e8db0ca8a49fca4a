import QuorumCredit.Host.Run
/-!
# Done once, in time

Something is to be done once, between two times, unless it is called off before.
A system keeps a ticket for it: the window, and whether the ticket is spent. If
every step respects the tickets, then in every run each thing is done at most
once, in the window its ticket had from the start, and never after its ticket
was spent or its window has passed.
-/

namespace Host

structure Ticket where
  opens : Nat
  closes : Nat
  spent : Bool
deriving DecidableEq, Repr

namespace Ticket

def Usable (k : Ticket) (now : Nat) : Prop := k.spent = false ∧ k.opens ≤ now ∧ now ≤ k.closes

/-- It is spent, or its window has passed. -/
def Over (k : Ticket) (now : Nat) : Prop := k.spent = true ∨ k.closes < now

instance (k : Ticket) (now : Nat) : Decidable (k.Over now) :=
  inferInstanceAs (Decidable (k.spent = true ∨ k.closes < now))

/-- The window stays, and what is spent stays spent. -/
structure Kept (k k' : Ticket) : Prop where
  opens : k'.opens = k.opens
  closes : k'.closes = k.closes
  spent : k.spent = true → k'.spent = true

variable {k k' k'' : Ticket} {now now' : Nat}

theorem Kept.refl (k : Ticket) : k.Kept k := ⟨rfl, rfl, id⟩

theorem Kept.trans (h : k.Kept k') (h' : k'.Kept k'') : k.Kept k'' where
  opens := h'.opens.trans h.opens
  closes := h'.closes.trans h.closes
  spent hs := h'.spent (h.spent hs)

/-- An unspent ticket may be spent. -/
theorem Kept.of_unspent (hs : k.spent = false) (hopens : k'.opens = k.opens) (hcloses : k'.closes = k.closes) :
    k.Kept k' := by
  refine ⟨hopens, hcloses, fun hspent => ?_⟩
  rw [hs] at hspent
  cases hspent

/-- What is over stays over. -/
theorem Over.kept (ho : k.Over now) (h : k.Kept k') (hnow : now ≤ now') : k'.Over now' := by
  rcases ho with hs | hc
  · exact .inl (h.spent hs)
  · refine .inr ?_
    rw [h.closes]
    exact Nat.lt_of_lt_of_le hc hnow

theorem Usable.not_over (hu : k.Usable now) : ¬ k.Over now := by
  obtain ⟨hs, -, hc⟩ := hu
  rintro (hspent | hpassed)
  · rw [hs] at hspent
    cases hspent
  · exact Nat.not_lt.2 hc hpassed

end Ticket

section

variable {σ ℓ κ : Type} {step : σ → ℓ → σ → Prop}

/-- The ticket of `p` satisfies `T`. -/
def HoldsOf (ticket : σ → κ → Option Ticket) (T : Ticket → Prop) (s : σ) (p : κ) : Prop := ∃ k ∈ ticket s p, T k

instance (ticket : σ → κ → Option Ticket) (T : Ticket → Prop) [DecidablePred T] (s : σ) (p : κ) :
    Decidable (HoldsOf ticket T s p) :=
  inferInstanceAs (Decidable (∃ k ∈ ticket s p, T k))

/-- Steps that respect the tickets: time goes on, tickets are kept, and what is
done had a ticket that could be used. What is done or called off is spent. -/
structure Tickets (step : σ → ℓ → σ → Prop) (clock : σ → Nat) (ticket : σ → κ → Option Ticket)
    (does voids : σ → ℓ → Option κ) : Prop where
  time {s l s'} : step s l s' → clock s ≤ clock s'
  keep {s l s' p k} : step s l s' → ticket s p = some k → HoldsOf ticket k.Kept s' p
  use {s l s' p} : step s l s' → does s l = some p → HoldsOf ticket (·.Usable (clock s)) s p
  spend {s l s' p} : step s l s' → does s l = some p → HoldsOf ticket (·.spent = true) s' p
  void {s l s' p} : step s l s' → voids s l = some p → HoldsOf ticket (·.spent = true) s' p

namespace Tickets

variable {clock : σ → Nat} {ticket : σ → κ → Option Ticket} {does voids : σ → ℓ → Option κ} {s₀ s t : σ} {l : ℓ}
  {h : List (σ × ℓ)} {p : κ} {k : Ticket}

theorem of_spent (hs : HoldsOf ticket (·.spent = true) s p) (now : Nat) : HoldsOf ticket (·.Over now) s p := by
  obtain ⟨k, hk, hspent⟩ := hs
  exact ⟨k, hk, .inl hspent⟩

variable (hT : Tickets step clock ticket does voids)
include hT

theorem over_step {s s' : σ} (hst : step s l s') (ho : HoldsOf ticket (·.Over (clock s)) s p) :
    HoldsOf ticket (·.Over (clock s')) s' p := by
  obtain ⟨k, hk, hover⟩ := ho
  obtain ⟨k', hk', hkept⟩ := hT.keep hst hk
  exact ⟨k', hk', hover.kept hkept (hT.time hst)⟩

/-- What is over is not done. -/
theorem not_done {s s' : σ} (hst : step s l s') (ho : HoldsOf ticket (·.Over (clock s)) s p) : does s l ≠ some p := by
  intro hdoes
  obtain ⟨k, hk, hover⟩ := ho
  obtain ⟨k', hk', huse⟩ := hT.use hst hdoes
  cases Option.mem_unique hk hk'
  exact huse.not_over hover

/-- Nothing is done twice. -/
theorem nodup (hr : Run step s₀ h s) : (usedKeys does h).Nodup := by
  have hmarks : Marks step does (HoldsOf ticket (·.spent = true)) := by
    refine ⟨fun {s l s' p} hst hdoes hspent => ?_, hT.spend, fun hst hspent => ?_⟩
    · exact hT.not_done hst (of_spent hspent _) hdoes
    · obtain ⟨k, hk, hs⟩ := hspent
      obtain ⟨k', hk', hkept⟩ := hT.keep hst hk
      exact ⟨k', hk', hkept.spent hs⟩
  exact hmarks.nodup hr

/-- A ticket is kept from any state of the run on. -/
theorem kept (hr : Run step s₀ h s) (hmem : (t, l) ∈ h) (hk : ticket t p = some k) : HoldsOf ticket k.Kept s p := by
  refine hr.since (I := fun s => HoldsOf ticket k.Kept s p) (fun s l s' hst hi => ?_) hmem ⟨k, hk, .refl k⟩
  obtain ⟨k', hk', hkept⟩ := hi
  obtain ⟨k'', hk'', hkept'⟩ := hT.keep hst hk'
  exact ⟨k'', hk'', hkept.trans hkept'⟩

/-- What was done was done in its window. -/
theorem in_window (hr : Run step s₀ h s) (hmem : (t, l) ∈ h) (hdoes : does t l = some p) :
    HoldsOf ticket (fun k => k.opens ≤ clock t ∧ clock t ≤ k.closes) s p := by
  obtain ⟨post, pre, rfl⟩ := List.append_of_mem hmem
  obtain ⟨-, t', hst, -⟩ := hr.split
  obtain ⟨k, hk, -, hopens, hcloses⟩ := hT.use hst hdoes
  obtain ⟨k', hk', hkept⟩ := hT.kept hr hmem hk
  refine ⟨k', hk', ?_, ?_⟩
  · rw [hkept.opens]
    exact hopens
  · rw [hkept.closes]
    exact hcloses

/-- What is over where the run starts is never done in it, and over where it ends. -/
theorem silent (hr : Run step s₀ h s) (ho : HoldsOf ticket (·.Over (clock s₀)) s₀ p) :
    p ∉ usedKeys does h ∧ HoldsOf ticket (·.Over (clock s)) s p := by
  induction hr with
  | nil => exact ⟨List.not_mem_nil, ho⟩
  | @snoc h s l s' hr hst ih =>
    refine ⟨fun hmem => ?_, hT.over_step hst ih.2⟩
    obtain ⟨⟨t, l'⟩, he, hdoes⟩ := List.mem_filterMap.1 hmem
    rcases List.mem_cons.1 he with heq | hbefore
    · cases heq
      exact hT.not_done hst ih.2 hdoes
    · exact ih.1 (List.mem_filterMap.2 ⟨_, hbefore, hdoes⟩)

/-- Once a thing is called off, it is over, and never done any more. -/
theorem silent_after {post pre : List (σ × ℓ)} (hr : Run step s₀ (post ++ (t, l) :: pre) s)
    (hends : does t l = some p ∨ voids t l = some p ∨ HoldsOf ticket (·.Over (clock t)) t p) :
    p ∉ usedKeys does post ∧ HoldsOf ticket (·.Over (clock s)) s p := by
  obtain ⟨-, t', hst, hpost⟩ := hr.split
  refine hT.silent hpost ?_
  rcases hends with hdoes | hvoids | hover
  · exact of_spent (hT.spend hst hdoes) _
  · exact of_spent (hT.void hst hvoids) _
  · exact hT.over_step hst hover

end Tickets

end

end Host
