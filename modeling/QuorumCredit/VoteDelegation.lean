import QuorumCredit.SlashVotes
import QuorumCredit.Host.Links
/-!
# Vote delegation

`delegate_vote` looks for a cycle along the chain from the delegate, but with the
voucher among the visited addresses: it stops where the chain would come back to
the voucher, and refuses nothing. `resolve_vote_delegation` follows ten links at
most. The delegations stay free of cycles, and resolve to somebody who has not
delegated, as long as each new one fits: it closes no cycle, and no chain through
it has more than ten links.
-/

open Host Function

namespace QuorumCredit

/-- A new delegation fits in the table it is made in. -/
def Op.delegationFits (links : Nat) (s : State) : Op → Prop
  | .delegateVote voucher delegate => Fits s.store.ballots.voteDelegation links voucher delegate
  | _ => True

theorem BallotEffect.short {s : State} {op : Op} {x : Ballots} {links : Nat} (he : BallotEffect s.store op x)
    (h : Short s.store.ballots.voteDelegation links) (hfits : op.delegationFits links s) :
    Short x.voteDelegation links := by
  cases he with
  | kept _ => exact h
  | delegated => exact h.link hfits
  | revoked => exact h.unlink _
  | deferred _ _ => exact h
  | counted _ _ _ => exact h
  | decided _ _ _ _ => exact h
  | executedVote _ _ => exact h
  | executedPending _ _ => exact h

theorem History.short {h s} (hr : History h s) (hok : Along (WhenDone fun s op => op.delegationFits 10 s) h) :
    Short s.store.ballots.voteDelegation 10 :=
  History.inv (p := fun s op => op.delegationFits 10 s) (I := fun _ s => Short s.store.ballots.voteDelegation 10)
    (fun _ _ => short_empty) (fun _ hi hd hfits => (ballots_of hd).short hi hfits) (fun hi _ => hi)
      (fun hi _ _ => hi) hr hok

/-- Without cycles, nothing the walk has visited comes again. -/
theorem followDelegation_eq {delegation : Address → Option Address} (hacyclic : Acyclic (Linked delegation))
    (fuel : Nat)
    (visited : List Address) (current : Address)
    (hvisited : ∀ a ∈ visited, ∃ n, hops delegation n a = some current) :
    followDelegation delegation fuel visited current = last delegation fuel current := by
  induction fuel generalizing visited current with
  | zero => rfl
  | succ fuel ih =>
    rw [followDelegation, last]
    cases hnext : delegation current with
    | none => rfl
    | some delegate =>
      have hnew : delegate ∉ visited := by
        intro hmem
        obtain ⟨n, hn⟩ := hvisited delegate hmem
        refine hacyclic current (transGen_of_hops (n := n) ?_)
        rw [hops_linked hnext, hn]
      simp only [if_neg hnew]
      refine ih _ _ fun a ha => ?_
      rcases List.mem_append.1 ha with ha | ha
      · obtain ⟨n, hn⟩ := hvisited a ha
        refine ⟨n + 1, ?_⟩
        rw [hops_trans hn, hops_linked hnext]
        rfl
      · rw [List.mem_singleton] at ha
        exact ⟨0, congrArg some ha⟩

theorem resolve_eq_last {x : Ballots} (hacyclic : Acyclic (Linked x.voteDelegation)) (voucher : Address) :
    x.resolveVoteDelegation voucher = last x.voteDelegation 10 voucher := by
  refine followDelegation_eq hacyclic 10 [voucher] voucher fun a ha => ⟨0, ?_⟩
  rw [List.mem_singleton.1 ha]
  rfl

/-- The delegations have no cycle, and every address resolves to one that has not delegated. -/
def Ballots.Resolved (x : Ballots) : Prop :=
  Acyclic (Linked x.voteDelegation) ∧
    ∀ v, x.voteDelegation (x.resolveVoteDelegation v) = none ∧
      x.resolveVoteDelegation (x.resolveVoteDelegation v) = x.resolveVoteDelegation v

theorem resolved_iff_short {x : Ballots} : x.Resolved ↔ Short x.voteDelegation 10 := by
  constructor
  · rintro ⟨hacyclic, hends⟩ a
    have hend := (hends a).1
    rw [resolve_eq_last hacyclic] at hend
    exact next_last_iff.1 hend
  · intro hshort
    refine ⟨hshort.acyclic, fun v => ?_⟩
    rw [resolve_eq_last hshort.acyclic, resolve_eq_last hshort.acyclic]
    exact ⟨next_last_iff.2 (hshort v), hshort.last_last v⟩

/-- In every run whose delegations fit where they are made, the delegations are
resolved in the state reached, and the next one keeps them so exactly if it fits. -/
theorem delegations_resolved {h s} (hr : History h s) (hok : Along (WhenDone fun s op => op.delegationFits 10 s) h) :
    s.store.ballots.Resolved ∧
      ∀ signers voucher delegate t, exec ⟨signers, .delegateVote voucher delegate⟩ s = .ok t →
        (t.ballots.Resolved ↔ Fits s.store.ballots.voteDelegation 10 voucher delegate) := by
  have hshort := hr.short hok
  refine ⟨resolved_iff_short.2 hshort, fun signers voucher delegate t hd => ?_⟩
  have hballots := ballots_of hd
  rw [resolved_iff_short]
  generalize t.ballots = x at hballots
  cases hballots with
  | kept hvotes => cases hvotes
  | delegated => exact short_link_iff hshort

/-- Account 3 delegates to account 2, which delegates to account 4. -/
def delegatedTwice : List Act := [.call [3] (.delegateVote 3 2), .call [2] (.delegateVote 2 4)]

theorem delegations_resolved_twice :
    (start.play delegatedTwice).store.ballots.resolveVoteDelegation 3 = 4 ∧
      (start.play delegatedTwice).store.ballots.Resolved := by
  have hfirst : Short (start.after ⟨[3], .delegateVote 3 2⟩).store.ballots.voteDelegation 1 := by
    refine (ballots_of (exec_after (c := ⟨[3], .delegateVote 3 2⟩) (s := start)
      (by decide +kernel))).short short_empty ?_
    exact Fits.of_end (m := 0) short_empty rfl (by decide) (le_refl 1)
  have hok : Along (WhenDone fun s op => op.delegationFits 10 s) (start.trace [] delegatedTwice) := by
    refine List.forall_mem_cons.2 ⟨fun _ => ?_, List.forall_mem_cons.2 ⟨fun _ => ?_, List.forall_mem_nil _⟩⟩
    · exact Fits.of_end hfirst (by decide +kernel) (by decide) (by decide)
    · exact Fits.of_end (m := 0) short_empty rfl (by decide) (by decide)
  exact ⟨by decide +kernel, (delegations_resolved ((History.genesis sampleWorld sampleBank).play delegatedTwice) hok).1⟩

/-- Accounts 2 and 3 delegate to each other. -/
def delegatedMutually : List Act := [.call [3] (.delegateVote 3 2), .call [2] (.delegateVote 2 3)]

/-- The delegations have a cycle, and account 3 resolves to one that has delegated. -/
theorem delegations_go_round :
    (¬ ∀ h s, History h s → Acyclic (Linked s.store.ballots.voteDelegation)) ∧
    ¬ ∀ h s, History h s → ∀ v, s.store.ballots.voteDelegation (s.store.ballots.resolveVoteDelegation v) = none ∧
      s.store.ballots.resolveVoteDelegation (s.store.ballots.resolveVoteDelegation v) =
        s.store.ballots.resolveVoteDelegation v := by
  have hr := (History.genesis sampleWorld sampleBank).play delegatedMutually
  refine ⟨fun hclaim => ?_, fun hclaim => ?_⟩
  · exact hclaim _ _ hr 3 (transGen_of_hops (n := 1) (by decide +kernel))
  · exact absurd (hclaim _ _ hr 3) (by decide +kernel)

end QuorumCredit
