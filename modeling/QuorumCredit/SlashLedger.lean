import QuorumCredit.Disposal
import QuorumCredit.Host.Carries
/-!
# The ledger of slashes

What every run keeps of the records that slashes file: which ids are taken, and that
a record stays the record of its slash. It is reversed at most once and for good, and
recovered from at most once and not after its reversal.
-/

open Host Function

namespace QuorumCredit

/-- Filed, it is the record of its slash; reversed, it stays as it is; and recovered from, by that amount. -/
def SlashRecord.stages : List (Stage SlashRecord) :=
  [⟨_, fun _ => True, fun r => { r with recoveryAmount := 0, reversalReason := none, reversed := false }⟩,
    ⟨_, (·.reversed = true), id⟩, ⟨_, (0 < ·.recoveryAmount), (·.recoveryAmount)⟩]

namespace SlashFiles

/-- Every record of the first files is in the second, at the same stages. -/
abbrev Carries (f f' : SlashFiles) : Prop := Host.Carries (Continues SlashRecord.stages) f.record f'.record

/-- The ids in use are those from 1 to the counter. -/
structure Numbered (f : SlashFiles) : Prop extends f.Sound where
  taken : ∀ i, (f.record i).isSome = true ↔ 0 < i ∧ i ≤ f.counter

variable {f : SlashFiles}

theorem Numbered.put (hf : f.Numbered) {i : Nat} {r r' : SlashRecord} (hr : f.record i = some r)
    (hid : r'.slashId = r.slashId) (hb : r'.borrower = r.borrower) : (f.put i r.borrower r').Numbered where
  toSound := hf.toSound.put hr hid hb
  taken j := by
    refine Iff.trans ?_ (hf.taken j)
    change (update f.record i (some r') j).isSome = true ↔ _
    by_cases hj : j = i
    · rw [hj, update_self, hr]
      exact iff_of_true rfl rfl
    · rw [update_of_ne hj]

theorem Numbered.addSlash (hf : f.Numbered) {b : Address} {record : SlashRecord} (release : Nat)
    (hid : record.slashId = f.counter + 1) (hb : record.borrower = b) : (f.addSlash b record release).Numbered where
  toSound := hf.toSound.addSlash release hid hb
  taken i := by
    change (update f.record (f.counter + 1) (some record) i).isSome = true ↔ 0 < i ∧ i ≤ f.counter + 1
    by_cases hi : i = f.counter + 1
    · subst hi
      simp
    · rw [update_of_ne hi, hf.taken i]
      omega

end SlashFiles

theorem SlashEffect.ledger {w : World} {s t : Store} {op : Op} (he : SlashEffect w s t op) (hf : s.files.Numbered) :
    t.files.Numbered ∧ s.files.Carries t.files := by
  cases he with
  | kept _ hfiles | voted _ _ hfiles _ =>
    rw [hfiles]
    exact ⟨hf, .refl .refl _⟩
  | repaid hslashing =>
    have hfiles : t.files = s.files := congrArg Slashing.files hslashing
    rw [hfiles]
    exact ⟨hf, .refl .refl _⟩
  | released _ _ hfiles _ | appealed _ _ _ hfiles | decided _ _ _ hfiles _ =>
    rw [hfiles]
    exact ⟨⟨⟨hf.filed, hf.audited⟩, hf.taken⟩, .refl .refl _⟩
  | executed _ hfiled =>
    rw [hfiled.files]
    exact ⟨hf.addSlash _ hfiled.id hfiled.borrower, fun i r hr => ⟨r, hf.addSlash_kept _ _ _ hr, .refl r⟩⟩
  | reversed hr hstanding hfiles _ =>
    rw [hfiles]
    exact ⟨hf.put hr rfl rfl, .set .refl hr (by simp [Continues, SlashRecord.stages, hstanding])⟩
  | recovered h =>
    obtain ⟨hb, hr⟩ := hf.audited _ _ h.audit
    rw [h.files, ← hb]
    refine ⟨hf.put hr rfl rfl, .set .refl hr ?_⟩
    simp [Continues, SlashRecord.stages, h.standing, not_lt.2 h.first]

theorem History.numbered {h s} (hr : History h s) : s.store.files.Numbered := by
  refine hr.inv (p := fun _ _ => True) (I := fun _ s => s.store.files.Numbered) (fun _ _ => ?_)
    (fun _ hi hd _ => ((slashEffect_of hd).ledger hi).1) (fun hi _ => hi) (fun hi _ _ => hi) (along_true h)
  exact ⟨⟨nofun, nofun⟩, fun i => ⟨nofun, fun hi => absurd hi.1 (not_lt.2 hi.2)⟩⟩

/-- After every run the slash ids in use are those from 1 to the counter, each record under
its own, and every record there ever was is still there, kept. -/
theorem slashes_kept {h s} (hr : History h s) :
    s.store.files.Numbered ∧ Along (fun s₀ _ => s₀.store.files.Carries s.store.files) h := by
  refine ⟨hr.numbered, ?_⟩
  obtain ⟨world, bank, hr⟩ := hr
  refine Run.along (Q := fun s s' => s.store.files.Carries s'.store.files) (.trans .trans) (fun hr hst => ?_) hr
  cases hst with
  | done hd => exact ((slashEffect_of hd).ledger (History.numbered ⟨world, bank, hr⟩)).2
  | refused _ | elsewhere _ _ => exact .refl .refl _

/-- The slash of `executedSlash`, which is then reversed. -/
theorem slashes_kept_reversed :
    let calls := executedSlash ++ [.call [1] (.reverseSlash [1] 1 "appeal")]
    (start.play calls).store.files.Numbered ∧
      Along (fun s₀ _ => s₀.store.files.Carries (start.play calls).store.files) (start.trace [] calls) :=
  slashes_kept (start_history _)

end QuorumCredit
