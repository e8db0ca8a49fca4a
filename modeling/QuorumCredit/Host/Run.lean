import Mathlib.Logic.Basic
/-!
# Runs

A run of a system that takes labelled steps, with its history: every step taken,
with the state it was taken in, newest first. A statement about every run covers
every interleaving of the calls, and one about the history says what happened
before what.
-/

namespace Host

variable {σ ℓ : Type} {step : σ → ℓ → σ → Prop} {s₀ : σ}

/-- The runs from `s₀`: their history, and the state they reach. -/
inductive Run (step : σ → ℓ → σ → Prop) (s₀ : σ) : List (σ × ℓ) → σ → Prop
  | nil : Run step s₀ [] s₀
  | snoc {h s l s'} : Run step s₀ h s → step s l s' → Run step s₀ ((s, l) :: h) s'

/-- Every step of the history was taken under `ok`. -/
def Along (ok : σ → ℓ → Prop) (h : List (σ × ℓ)) : Prop := ∀ e ∈ h, ok e.1 e.2

instance {ok : σ → ℓ → Prop} [∀ s l, Decidable (ok s l)] (h : List (σ × ℓ)) : Decidable (Along ok h) :=
  inferInstanceAs (Decidable (∀ e ∈ h, ok e.1 e.2))

/-- Every step was taken under `ok`, which may look at the history it was taken after. -/
def Throughout (ok : List (σ × ℓ) → σ → ℓ → Prop) : List (σ × ℓ) → Prop
  | [] => True
  | (s, l) :: h => Throughout ok h ∧ ok h s l

instance {ok : List (σ × ℓ) → σ → ℓ → Prop} [∀ h s l, Decidable (ok h s l)] :
    (h : List (σ × ℓ)) → Decidable (Throughout ok h)
  | [] => inferInstanceAs (Decidable True)
  | (s, l) :: h =>
    have : Decidable (Throughout ok h) := instDecidableThroughout h
    inferInstanceAs (Decidable (Throughout ok h ∧ ok h s l))

variable {ok ok' : List (σ × ℓ) → σ → ℓ → Prop} {h : List (σ × ℓ)}

theorem Along.throughout {ok : σ → ℓ → Prop} (hok : Along ok h) : Throughout (fun _ => ok) h := by
  induction h with
  | nil => trivial
  | cons e h ih =>
    rw [Along, List.forall_mem_cons] at hok
    exact ⟨ih hok.2, hok.1⟩

theorem along_iff_throughout {ok : σ → ℓ → Prop} : Along ok h ↔ Throughout (fun _ => ok) h := by
  refine ⟨Along.throughout, fun hok => ?_⟩
  induction h with
  | nil => exact List.forall_mem_nil _
  | cons e h ih => exact List.forall_mem_cons.2 ⟨hok.2, ih hok.1⟩


theorem Throughout.mono (hi : ∀ h s l, ok h s l → ok' h s l) (hok : Throughout ok h) : Throughout ok' h := by
  induction h with
  | nil => trivial
  | cons e h ih => exact ⟨ih hok.1, hi _ _ _ hok.2⟩

theorem Throughout.and (hok : Throughout ok h) (hok' : Throughout ok' h) :
    Throughout (fun h s l => ok h s l ∧ ok' h s l) h := by
  induction h with
  | nil => trivial
  | cons e h ih => exact ⟨ih hok.1 hok'.1, hok.2, hok'.2⟩

/-- An invariant of every step that meets `ok` holds after every run whose steps
all do. It may speak of the history. -/
theorem Run.inv_throughout (ok : List (σ × ℓ) → σ → ℓ → Prop) (I : List (σ × ℓ) → σ → Prop) (h0 : I [] s₀)
    (hs : ∀ h s l s', Run step s₀ h s → I h s → ok h s l → step s l s' → I ((s, l) :: h) s')
    {h s} (hr : Run step s₀ h s) (hok : Throughout ok h) : I h s := by
  induction hr with
  | nil => exact h0
  | snoc hr hst ih => exact hs _ _ _ _ hr (ih hok.1) hok.2 hst

/-- The same where `ok` looks at no history. -/
theorem Run.inv (ok : σ → ℓ → Prop) (I : List (σ × ℓ) → σ → Prop) (h0 : I [] s₀)
    (hs : ∀ h s l s', Run step s₀ h s → I h s → ok s l → step s l s' → I ((s, l) :: h) s')
    {h s} (hr : Run step s₀ h s) (hok : Along ok h) : I h s :=
  Run.inv_throughout (fun _ => ok) I h0 hs hr hok.throughout

/-- An invariant of every step holds after every run. -/
theorem Run.always (I : σ → Prop) (h0 : I s₀) (hs : ∀ s l s', I s → step s l s' → I s') {h s}
    (hr : Run step s₀ h s) : I s :=
  Run.inv (fun _ _ => True) (fun _ s => I s) h0 (fun _ _ _ _ _ hi _ hst => hs _ _ _ hi hst) hr
    fun _ _ => trivial

/-- A run all along which `I` holds takes its steps from where `I` holds. -/
theorem Run.within {I : σ → Prop} (h0 : I s₀) (hs : ∀ s l s', I s → step s l s' → I s') {h s}
    (hr : Run step s₀ h s) : Run (fun s l s' => I s ∧ step s l s') s₀ h s := by
  induction hr with
  | nil => exact .nil
  | snoc hr hst ih => exact ih.snoc ⟨hr.always I h0 hs, hst⟩

/-- Conditions that agree in every state a run passes are met alike throughout it. -/
theorem Run.throughout_congr {h s} (hr : Run step s₀ h s) (hiff : ∀ {h s l}, Run step s₀ h s → (ok h s l ↔ ok' h s l)) :
    Throughout ok h ↔ Throughout ok' h := by
  induction hr with
  | nil => exact Iff.rfl
  | snoc hr _ ih => exact and_congr ih (hiff hr)

/-- `P` holds of the state reached and of every state passed on the way, each with its history. -/
def Always (P : List (σ × ℓ) → σ → Prop) : List (σ × ℓ) → σ → Prop
  | [], s => P [] s
  | (t, l) :: h, s => Always P h t ∧ P ((t, l) :: h) s

theorem Always.last {P : List (σ × ℓ) → σ → Prop} {s : σ} (ha : Always P h s) : P h s := by
  cases h with
  | nil => exact ha
  | cons e h => exact ha.2

/-- Where a step keeps `P` exactly under `ok`, a run keeps it exactly when all its steps meet `ok`. -/
theorem Run.always_iff (ok : List (σ × ℓ) → σ → ℓ → Prop) (P : List (σ × ℓ) → σ → Prop) (h0 : P [] s₀)
    (hs : ∀ h s l s', Run step s₀ h s → P h s → step s l s' → (P ((s, l) :: h) s' ↔ ok h s l))
    {h s} (hr : Run step s₀ h s) : Always P h s ↔ Throughout ok h := by
  induction hr with
  | nil => exact iff_of_true h0 trivial
  | @snoc h s l s' hr hst ih =>
    constructor
    · rintro ⟨hbefore, hafter⟩
      exact ⟨ih.1 hbefore, (hs h s l s' hr hbefore.last hst).1 hafter⟩
    · rintro ⟨hbefore, hok⟩
      have halways := ih.2 hbefore
      exact ⟨halways, (hs h s l s' hr halways.last hst).2 hok⟩

/-- Where `I` is kept under `ok` and gives `P`, and a step after which `P` holds has met
`ok`, a run keeps `P` exactly when all its steps meet `ok`. -/
theorem Run.always_iff_of_inv {I P : List (σ × ℓ) → σ → Prop} (h0 : I [] s₀) (hkeeps : ∀ {h s}, I h s → P h s)
    (hs : ∀ {h s l s'}, Run step s₀ h s → I h s → step s l s' → ok h s l → I ((s, l) :: h) s')
    (hmet : ∀ {h s l s'}, Run step s₀ h s → I h s → step s l s' → P ((s, l) :: h) s' → ok h s l) {h s}
    (hr : Run step s₀ h s) : Always P h s ↔ Throughout ok h := by
  have hinv : ∀ {h s}, Run step s₀ h s → Throughout ok h → I h s := fun hr hok =>
    Run.inv_throughout ok I h0 (fun _ _ _ _ hr hi hok hst => hs hr hi hst hok) hr hok
  induction hr with
  | nil => exact iff_of_true (hkeeps h0) trivial
  | @snoc h s l s' hr hst ih =>
    constructor
    · rintro ⟨hbefore, hafter⟩
      have hok := ih.1 hbefore
      exact ⟨hok, hmet hr (hinv hr hok) hst hafter⟩
    · rintro ⟨hok, hnow⟩
      exact ⟨ih.2 hok, hkeeps (hinv (hr.snoc hst) ⟨hok, hnow⟩)⟩

/-- Runs compose. -/
theorem Run.trans {h h' s s'} (hr : Run step s₀ h s) (hr' : Run step s h' s') : Run step s₀ (h' ++ h) s' := by
  induction hr' with
  | nil => exact hr
  | snoc _ hst ih => exact ih.snoc hst

/-- A run passes through every state of its history. -/
theorem Run.split {post pre s l s'} (hr : Run step s₀ (post ++ (s, l) :: pre) s') :
    Run step s₀ pre s ∧ ∃ t, step s l t ∧ Run step t post s' := by
  induction post generalizing s' with
  | nil =>
    cases hr with
    | snoc hr hst => exact ⟨hr, _, hst, .nil⟩
  | cons e post ih =>
    cases hr with
    | snoc hr hst =>
      obtain ⟨hpre, t, ht, hpost⟩ := ih hr
      exact ⟨hpre, t, ht, hpost.snoc hst⟩

/-- What every step keeps, the run keeps from any state of its history on. -/
theorem Run.since {I : σ → Prop} (hkeep : ∀ s l s', step s l s' → I s → I s') {h s} (hr : Run step s₀ h s) {t l}
    (hmem : (t, l) ∈ h) (ht : I t) : I s := by
  induction hr with
  | nil => cases hmem
  | snoc _ hst ih =>
    rcases List.mem_cons.1 hmem with he | hmem
    · cases he
      exact hkeep _ _ _ hst ht
    · exact hkeep _ _ _ hst (ih hmem)

/-! ## Where an entry comes from

A table with entries that steps write, drop or keep, empty at the start: an
entry was written by some step of the history, and no step since has dropped it.
-/

section

variable {κ ε : Type} (entry : σ → κ → Option ε) (writes : σ → ℓ → κ → ε → Prop) (drops : σ → ℓ → κ → Prop)

theorem Run.written (hempty : ∀ k, entry s₀ k = none)
    (hstep : ∀ {s l s' k e}, step s l s' → entry s' k = some e → entry s k = some e ∧ ¬ drops s l k ∨ writes s l k e)
    {h s} (hr : Run step s₀ h s) {k e} (he : entry s k = some e) :
    ∃ post t l pre, h = post ++ (t, l) :: pre ∧ writes t l k e ∧ ∀ x ∈ post, entry x.1 k = some e ∧
      ¬ drops x.1 x.2 k := by
  induction hr with
  | nil =>
    rw [hempty] at he
    cases he
  | @snoc h s l s' hr hst ih =>
    rcases hstep hst he with ⟨hbefore, hkept⟩ | hwrites
    · obtain ⟨post, t, l', pre, rfl, hwrites, hsince⟩ := ih hbefore
      exact ⟨(s, l) :: post, t, l', pre, rfl, hwrites, List.forall_mem_cons.2 ⟨⟨hbefore, hkept⟩, hsince⟩⟩
    · exact ⟨[], s, l, h, rfl, hwrites, List.forall_mem_nil _⟩

end

/-! ## Used once

Steps that use up a key, in a system that marks used keys and refuses marked
ones: whatever else happens in between, no key is used twice. -/

section

variable {κ : Type} {uses : σ → ℓ → Option κ} {used : σ → κ → Prop}

/-- A step that uses a key finds it unmarked and marks it, and no step takes a mark away. -/
structure Marks (step : σ → ℓ → σ → Prop) (uses : σ → ℓ → Option κ) (used : σ → κ → Prop) : Prop where
  fresh : ∀ {s l s' k}, step s l s' → uses s l = some k → ¬ used s k
  mark : ∀ {s l s' k}, step s l s' → uses s l = some k → used s' k
  keep : ∀ {s l s' k}, step s l s' → used s k → used s' k

/-- The keys a history used, newest first. -/
def usedKeys (uses : σ → ℓ → Option κ) (h : List (σ × ℓ)) : List κ := h.filterMap fun e => uses e.1 e.2

theorem Marks.used_of_mem (hm : Marks step uses used) {h s} (hr : Run step s₀ h s) :
    ∀ k ∈ usedKeys uses h, used s k := by
  intro k hk
  obtain ⟨⟨t, l⟩, hmem, huse⟩ := List.mem_filterMap.1 hk
  obtain ⟨post, pre, rfl⟩ := List.append_of_mem hmem
  obtain ⟨-, t', hst, hpost⟩ := hr.split
  exact hpost.always (fun s => used s k) (hm.mark hst huse) fun _ _ _ hi hst => hm.keep hst hi

/-- No key is used twice. -/
theorem Marks.nodup (hm : Marks step uses used) {h s} (hr : Run step s₀ h s) : (usedKeys uses h).Nodup := by
  induction hr with
  | nil => exact List.nodup_nil
  | @snoc h s l s' hr hst ih =>
    cases huse : uses s l with
    | none => simpa [usedKeys, huse] using ih
    | some k =>
      have hnew : k ∉ usedKeys uses h := fun hk => hm.fresh hst huse (hm.used_of_mem hr k hk)
      simpa [usedKeys, huse] using And.intro hnew ih

end

end Host
