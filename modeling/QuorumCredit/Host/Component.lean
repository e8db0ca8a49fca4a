import QuorumCredit.Host.Goes
import QuorumCredit.Host.Run
/-!
# Components

A part of a contract whose storage no other entry point writes. A call runs in
the context that the world and its signatures make, and leaves nothing behind
when it fails. Between the calls the rest of the contract and the chain go on:
`drift` says what that may change. A theorem about the runs of a component
covers every interleaving of its calls with whatever happens elsewhere.
-/

namespace Host

/-- A component with storage `σ` and calls `κ`, in a world `W`, called under signatures `ι`. -/
structure Component (W ι ω ε σ κ : Type) where
  run : κ → Tx ω ε σ Unit
  context : W → ι → ω
  drift : W → σ → W → σ → Prop

/-- The storage of a component, in a world. -/
structure Situated (W σ : Type) where
  world : W
  store : σ

/-- A call with its signatures, or whatever happens elsewhere. -/
inductive Event (W ι σ κ : Type) where
  | call (signers : ι) (op : κ)
  | elsewhere (world : W) (store : σ)

namespace Component

variable {W ι ω ε σ κ : Type} (C : Component W ι ω ε σ κ)

/-- The storage after a call that goes through. -/
def exec (s : Situated W σ) (signers : ι) (op : κ) : Option σ :=
  match C.run op (C.context s.world signers) s.store with
  | .ok (_, t) => some t
  | .error _ => none

/-- The state after a call; a refused one changes nothing. -/
def after (s : Situated W σ) (signers : ι) (op : κ) : Situated W σ :=
  { s with store := (C.exec s signers op).getD s.store }

inductive Step : Situated W σ → Event W ι σ κ → Situated W σ → Prop
  | call (s signers op) : Step s (.call signers op) (C.after s signers op)
  | elsewhere {s w t} : C.drift s.world s.store w t → Step s (.elsewhere w t) ⟨w, t⟩

/-- What the event did, if it is a call that went through: the call, and the storage it left. -/
def done (s : Situated W σ) : Event W ι σ κ → Option (κ × σ)
  | .call signers op => (C.exec s signers op).map fun t => (op, t)
  | .elsewhere .. => none

/-- On a call that goes through, `p` holds of the state it is made in. -/
def WhenDone (p : Situated W σ → κ → Prop) (s : Situated W σ) (e : Event W ι σ κ) : Prop :=
  ∀ d ∈ C.done s e, p s d.1

instance {p : Situated W σ → κ → Prop} [∀ s op, Decidable (p s op)] (s : Situated W σ) (e : Event W ι σ κ) :
    Decidable (C.WhenDone p s e) :=
  inferInstanceAs (Decidable (∀ d ∈ C.done s e, p s d.1))

variable {C}

variable {s s₀ : Situated W σ} {signers : ι} {op : κ} {e : Event W ι σ κ}
  {ok : List (Situated W σ × Event W ι σ κ) → Situated W σ → κ → Prop}
  {I : List (Situated W σ × Event W ι σ κ) → Situated W σ → Prop}

theorem exec_yields {t : σ} {Q : σ → Prop} (h : Yields (C.run op) (C.context s.world signers) s.store fun _ t => Q t)
    (he : C.exec s signers op = some t) : Q t := by
  unfold exec at he
  split at he
  case h_1 u t' hrun =>
    cases he
    exact h u t hrun
  case h_2 => cases he

/-- A call goes through where its body does. -/
theorem exec_eq_some_iff {t : σ} :
    C.exec s signers op = some t ↔ Goes (C.run op) (C.context s.world signers) s.store fun _ u => u = t := by
  unfold exec Goes
  cases C.run op (C.context s.world signers) s.store with
  | error e => simp
  | ok p =>
    obtain ⟨u, t'⟩ := p
    simp [eq_comm]

theorem done_call {t : σ} (h : C.exec s signers op = some t) : C.done s (.call signers op) = some (op, t) := by
  simp [done, h]

theorem of_done {t : σ} (h : C.done s e = some (op, t)) :
    ∃ signers, e = .call signers op ∧ C.exec s signers op = some t := by
  cases e with
  | call signers op' =>
    obtain ⟨t', he, hpair⟩ := Option.map_eq_some_iff.1 h
    cases hpair
    exact ⟨signers, rfl, he⟩
  | elsewhere => cases h

theorem whenDone_call {p : Situated W σ → κ → Prop} (h : p s op) (signers : ι) : C.WhenDone p s (.call signers op) := by
  intro d hd
  obtain ⟨t, -, rfl⟩ := Option.map_eq_some_iff.1 hd
  exact h

theorem whenDone_idle {p : Situated W σ → κ → Prop} (hnone : C.done s e = none) : C.WhenDone p s e := by
  intro d hd
  rw [hnone] at hd
  cases hd

theorem whenDone_congr {p q : Situated W σ → κ → Prop} (h : ∀ op, p s op ↔ q s op) (e : Event W ι σ κ) :
    C.WhenDone p s e ↔ C.WhenDone q s e :=
  forall₂_congr fun d _ => h d.1

theorem exec_of_isSome (h : (C.exec s signers op).isSome = true) :
    C.exec s signers op = some (C.after s signers op).store := by
  obtain ⟨t, ht⟩ := Option.isSome_iff_exists.1 h
  simp [after, ht]

/-- A step is a call that goes through, a refused one, or happens elsewhere. -/
theorem Step.cases {s' : Situated W σ} (hst : C.Step s e s') :
    (∃ signers op, e = .call signers op ∧ C.exec s signers op = some s'.store ∧ s'.world = s.world) ∨
      (C.done s e = none ∧ s' = s) ∨ C.done s e = none ∧ C.drift s.world s.store s'.world s'.store := by
  cases hst with
  | call signers op =>
    cases he : C.exec s signers op with
    | none => exact .inr (.inl ⟨by simp [done, he], by simp [after, he]⟩)
    | some t => exact .inl ⟨signers, op, rfl, by simp [after, he], rfl⟩
  | elsewhere hdrift => exact .inr (.inr ⟨rfl, hdrift⟩)

/-- A step is a call that goes through, or happens elsewhere. -/
theorem step_inv
    (hdone : ∀ {h s signers op t}, Run C.Step s₀ h s → I h s → ok h s op → C.exec s signers op = some t → I ((s, .call signers op) :: h) ⟨s.world, t⟩)
    (hidle : ∀ {h s e s'}, I h s → C.done s e = none → s' = s ∨ C.drift s.world s.store s'.world s'.store → I ((s, e) :: h) s')
    {h s e s'} (hr : Run C.Step s₀ h s) (hi : I h s) (hst : C.Step s e s') (hwhen : C.WhenDone (ok h) s e) :
    I ((s, e) :: h) s' := by
  rcases hst.cases with ⟨signers, op, rfl, he, hw⟩ | ⟨hnone, hsame⟩ | ⟨hnone, hdrift⟩
  · obtain ⟨w, t⟩ := s'
    cases hw
    exact hdone hr hi (hwhen _ (done_call he)) he
  · exact hidle hi hnone (.inl hsame)
  · exact hidle hi hnone (.inr hdrift)

/-- An invariant of the calls that go through under `ok` and of what happens
elsewhere holds after every run. It may speak of the history, and so may `ok`. -/
theorem inv_throughout (h0 : I [] s₀)
    (hdone : ∀ {h s signers op t}, Run C.Step s₀ h s → I h s → ok h s op → C.exec s signers op = some t → I ((s, .call signers op) :: h) ⟨s.world, t⟩)
    (hidle : ∀ {h s e s'}, I h s → C.done s e = none → s' = s ∨ C.drift s.world s.store s'.world s'.store → I ((s, e) :: h) s')
    {h s} (hr : Run C.Step s₀ h s) (hok : Throughout (fun h => C.WhenDone (ok h)) h) : I h s :=
  Run.inv_throughout (fun h => C.WhenDone (ok h)) I h0
    (fun _ _ _ _ hr hi hwhen hst => step_inv hdone hidle hr hi hst hwhen) hr hok

/-- An invariant of every call that goes through and of what happens elsewhere
holds after every run. It may speak of the history. -/
theorem inv (h0 : I [] s₀)
    (hdone : ∀ {h s signers op t}, Run C.Step s₀ h s → I h s → C.exec s signers op = some t → I ((s, .call signers op) :: h) ⟨s.world, t⟩)
    (hidle : ∀ {h s e s'}, I h s → C.done s e = none → s' = s ∨ C.drift s.world s.store s'.world s'.store → I ((s, e) :: h) s')
    {h s} (hr : Run C.Step s₀ h s) : I h s := by
  have hok : Along (C.WhenDone fun _ _ => True) h := fun _ _ _ _ => trivial
  exact inv_throughout h0 (fun hr hi _ he => hdone hr hi he) hidle hr hok.throughout

/-- Where a call that goes through keeps `P` exactly under `ok`, and nothing else
ends it, a run keeps it exactly when all such calls of it meet `ok`. -/
theorem always_iff {P : List (Situated W σ × Event W ι σ κ) → Situated W σ → Prop} (h0 : P [] s₀)
    (hdone : ∀ {h s signers op t}, Run C.Step s₀ h s → P h s → C.exec s signers op = some t → (P ((s, .call signers op) :: h) ⟨s.world, t⟩ ↔ ok h s op))
    (hidle : ∀ {h s e s'}, P h s → C.done s e = none → s' = s ∨ C.drift s.world s.store s'.world s'.store → P ((s, e) :: h) s')
    {h s} (hr : Run C.Step s₀ h s) : Always P h s ↔ Throughout (fun h => C.WhenDone (ok h)) h := by
  refine Run.always_iff (fun h => C.WhenDone (ok h)) P h0 (fun h s e s' hr hp hst => ?_) hr
  rcases hst.cases with ⟨signers, op, rfl, he, hw⟩ | ⟨hnone, hsame⟩ | ⟨hnone, hdrift⟩
  · obtain ⟨w, t⟩ := s'
    cases hw
    rw [hdone hr hp he]
    exact ⟨fun hok => whenDone_call hok signers, fun hwhen => hwhen _ (done_call he)⟩
  · exact iff_of_true (hidle hp hnone (.inl hsame)) (whenDone_idle hnone)
  · exact iff_of_true (hidle hp hnone (.inr hdrift)) (whenDone_idle hnone)

/-- An invariant of the storage that every call and every drift keeps holds after every run. -/
theorem always {I : σ → Prop} (h0 : I s₀.store)
    (hcall : ∀ {s signers op t}, I s.store → C.exec s signers op = some t → I t)
    (hdrift : ∀ {w x w' x'}, I x → C.drift w x w' x' → I x') {h s} (hr : Run C.Step s₀ h s) : I s.store := by
  refine hr.always (fun s => I s.store) h0 fun s e s' hi hst => ?_
  rcases hst.cases with ⟨signers, op, -, he, -⟩ | ⟨-, rfl⟩ | ⟨-, hd⟩
  · exact hcall hi he
  · exact hi
  · exact hdrift hi hd

/-! ## Reading a history -/

variable (C) in
/-- The calls that went through, replayed by `f` from `b`. -/
def replay {β : Type} (f : Situated W σ → κ → σ → β → β) (b : β) : List (Situated W σ × Event W ι σ κ) → β
  | [] => b
  | (s, e) :: h =>
    match C.done s e with
    | some (op, t) => f s op t (replay f b h)
    | none => replay f b h

@[simp] theorem replay_nil {β : Type} (f : Situated W σ → κ → σ → β → β) (b : β) : C.replay f b [] = b := rfl

theorem replay_call {β : Type} {t : σ} (he : C.exec s signers op = some t) (f : Situated W σ → κ → σ → β → β) (b : β)
    (h : List (Situated W σ × Event W ι σ κ)) :
    C.replay f b ((s, .call signers op) :: h) = f s op t (C.replay f b h) := by
  rw [replay, done_call he]

theorem replay_idle {β : Type} (hnone : C.done s e = none) (f : Situated W σ → κ → σ → β → β) (b : β)
    (h : List (Situated W σ × Event W ι σ κ)) : C.replay f b ((s, e) :: h) = C.replay f b h := by
  rw [replay, hnone]

variable (C) in
/-- What `f` says of the calls that went through, added up. -/
def tally (f : Situated W σ → κ → σ → Int) : List (Situated W σ × Event W ι σ κ) → Int :=
  C.replay (fun s op t acc => acc + f s op t) 0

@[simp] theorem tally_nil (f : Situated W σ → κ → σ → Int) : C.tally f [] = 0 := rfl

theorem tally_call {t : σ} (he : C.exec s signers op = some t) (f : Situated W σ → κ → σ → Int)
    (h : List (Situated W σ × Event W ι σ κ)) : C.tally f ((s, .call signers op) :: h) = C.tally f h + f s op t :=
  replay_call he _ 0 h

theorem tally_idle (hnone : C.done s e = none) (f : Situated W σ → κ → σ → Int)
    (h : List (Situated W σ × Event W ι σ κ)) : C.tally f ((s, e) :: h) = C.tally f h :=
  replay_idle hnone _ 0 h

/-! ## Scripts -/

variable (C)

/-- The state after some calls, one after another. -/
def play (s : Situated W σ) : List (ι × κ) → Situated W σ
  | [] => s
  | (signers, op) :: calls => play (C.after s signers op) calls

@[simp] theorem play_world (s : Situated W σ) (calls : List (ι × κ)) : (C.play s calls).world = s.world := by
  induction calls generalizing s with
  | nil => rfl
  | cons call calls ih => exact ih (C.after s call.1 call.2)

/-- The history of the calls, added to `h`. -/
def trace (s : Situated W σ) (h : List (Situated W σ × Event W ι σ κ)) :
    List (ι × κ) → List (Situated W σ × Event W ι σ κ)
  | [] => h
  | (signers, op) :: calls => trace (C.after s signers op) ((s, .call signers op) :: h) calls

theorem run_play {h : List (Situated W σ × Event W ι σ κ)} (hr : Run C.Step s₀ h s) (calls : List (ι × κ)) :
    Run C.Step s₀ (C.trace s h calls) (C.play s calls) := by
  induction calls generalizing h s with
  | nil => exact hr
  | cons call calls ih => exact ih (hr.snoc (.call s call.1 call.2))

theorem trace_concat (s : Situated W σ) (h : List (Situated W σ × Event W ι σ κ)) (calls : List (ι × κ)) (signers : ι)
    (op : κ) : C.trace s h (calls ++ [(signers, op)]) = (C.play s calls, .call signers op) :: C.trace s h calls := by
  induction calls generalizing s h with
  | nil => rfl
  | cons call calls ih => exact ih (C.after s call.1 call.2) ((s, .call call.1 call.2) :: h)

end Component

end Host
