import QuorumCredit.Helpers
import QuorumCredit.Host.Goes
/-!
# The pause

When the guards of `helpers.rs` let a call through, and what they write: nothing,
or the end of a thaw whose window is over.
-/

open Host

namespace QuorumCredit

namespace Access

/-- The contract thaws, and the window of the thaw is over. -/
def thawOver (now : Nat) (a : Access) : Bool :=
  match a.pauseMode, a.thawState with
  | .thawing, some thaw => thaw.thawStartTimestamp + thaw.thawDuration ≤ now
  | _, _ => false

/-- A thaw whose window is over is ended. -/
def settled (now : Nat) (a : Access) : Access :=
  if a.thawOver now = true then { a with pauseMode := .none, paused := false, thawState := none } else a

/-- The end of the thaw's window is a time. -/
def ThawFits (a : Access) : Prop :=
  match a.pauseMode, a.thawState with
  | .thawing, some thaw => thaw.thawStartTimestamp + thaw.thawDuration ≤ u64Max
  | _, _ => True

variable {a : Access} {now : Nat}

theorem thawing_of_thawOver (h : a.thawOver now = true) : a.pauseMode = .thawing := by
  unfold thawOver at h
  split at h
  case h_1 hmode _ => exact hmode
  case h_2 => cases h

theorem settled_of_over (h : a.thawOver now = true) :
    a.settled now = { a with pauseMode := .none, paused := false, thawState := none } :=
  if_pos h

theorem settled_of_not_over (h : a.thawOver now ≠ true) : a.settled now = a := if_neg h

/-- Outside a thaw there is nothing to end. -/
theorem settled_of_not_thawing (h : a.pauseMode ≠ .thawing) : a.settled now = a :=
  settled_of_not_over fun hover => h (thawing_of_thawOver hover)

theorem thawFits_of_not_thawing (h : a.pauseMode ≠ .thawing) : a.ThawFits := by
  unfold ThawFits
  split
  case h_1 hmode _ => exact absurd hmode h
  case h_2 => trivial

end Access

variable {ctx : Context} {a : Access}

/-- `get_pause_mode` ends a thaw that is over, and reads the mode after that. -/
@[simp] theorem goes_getPauseMode (Q : PauseMode → Access → Prop) :
    Goes getPauseMode ctx a Q ↔ a.ThawFits ∧ Q (a.settled ctx.now).pauseMode (a.settled ctx.now) := by
  unfold getPauseMode
  simp only [goes_bind, goes_ask, goes_look, id_eq]
  split
  case h_1 thaw hmode hthaw =>
    have hfits : a.ThawFits ↔ thaw.thawStartTimestamp + thaw.thawDuration ≤ u64Max := by
      simp only [Access.ThawFits, hmode, hthaw]
    have hover : a.thawOver ctx.now = true ↔ thaw.thawStartTimestamp + thaw.thawDuration ≤ ctx.now := by
      simp only [Access.thawOver, hmode, hthaw, decide_eq_true_iff]
    simp only [goes_bind, goes_u64, hfits]
    refine and_congr_right fun _ => ?_
    split
    case isTrue h =>
      rw [Access.settled_of_over (hover.2 h)]
      simp
    case isFalse h =>
      rw [Access.settled_of_not_over (hover.not.2 h), hmode]
      simp
  case h_2 hmode =>
    have hthawing : a.thawOver ctx.now ≠ true := by
      intro hover
      unfold Access.thawOver at hover
      split at hover
      case h_1 thaw hm ht => exact hmode thaw hm ht
      case h_2 => cases hover
    have hfits : a.ThawFits := by
      unfold Access.ThawFits
      split
      case h_1 thaw hm ht => exact absurd ht (hmode thaw hm)
      case h_2 => trivial
    rw [Access.settled_of_not_over hthawing]
    simp [hfits]

/-- A call passes the guard of the writes if nothing pauses the contract and no thaw is on. -/
@[simp] theorem goes_requireNotPaused (Q : Unit → Access → Prop) :
    Goes requireNotPaused ctx a Q ↔
      (ctx.config.emergencyPauseEnabled = false ∧ a.ThawFits ∧ (a.settled ctx.now).pauseMode = .none) ∧
        Q () (a.settled ctx.now) := by
  simp only [requireNotPaused, goes_bind, goes_ask, goes_require, goes_getPauseMode]
  cases (a.settled ctx.now).pauseMode <;> simp [and_assoc]

@[simp] theorem goes_requireReadsAllowed (Q : Unit → Access → Prop) :
    Goes requireReadsAllowed ctx a Q ↔
      (ctx.config.emergencyPauseEnabled = false ∧ a.ThawFits ∧ (a.settled ctx.now).pauseMode ≠ .paused) ∧
        Q () (a.settled ctx.now) := by
  simp only [requireReadsAllowed, goes_bind, goes_ask, goes_require, goes_getPauseMode, and_assoc]

end QuorumCredit
