import QuorumCredit.SbtGroup
import Mathlib.Data.List.Dedup
import Mathlib.Data.List.Perm.Subperm
/-!
# Who decides on a group

Proposals are made against one list of owners and executed against another. With
distinct owners, whose approvals are all of current owners when they count, and
changes that still make sense when they are executed, the list stays sound and a
majority decides every change.
-/

open Host Function

namespace QuorumCredit

/-! ## What a call does -/

/-- A group and one of its proposals, written under these ids. -/
def SbtGroups.write (g : SbtGroups) (key id pid : Nat) (group : GroupSbt) (p : GroupMembershipProposal) : SbtGroups :=
  { g with
    sbtGroup := update g.sbtGroup key (some group)
    sbtGroupProposal := update g.sbtGroupProposal id (update (g.sbtGroupProposal id) pid (some p)) }

section

variable (g : SbtGroups) {key id pid : Nat} (group : GroupSbt) (p : GroupMembershipProposal)

@[simp] theorem write_group : (g.write key id pid group p).sbtGroup key = some group := update_self _ _ _

theorem write_group_of_ne {key' : Nat} (h : key' ≠ key) :
    (g.write key id pid group p).sbtGroup key' = g.sbtGroup key' := update_of_ne h _ _

@[simp] theorem write_proposal : (g.write key id pid group p).sbtGroupProposal id pid = some p := by
  simp [SbtGroups.write]

theorem write_proposal_of_ne {id' pid' : Nat} (h : ¬ (id' = id ∧ pid' = pid)) :
    (g.write key id pid group p).sbtGroupProposal id' pid' = g.sbtGroupProposal id' pid' := by
  unfold SbtGroups.write
  by_cases hid : id' = id
  · have hpid : pid' ≠ pid := fun heq => h ⟨hid, heq⟩
    simp only [hid, update_self, update_of_ne hpid]
  · simp only [update_of_ne hid]

end

/-- What a call that goes through found and did. -/
inductive SbtEffect (g : SbtGroups) : SbtOp → SbtGroups → Prop
  | created {caller owners metadata key group} : owners ≠ [] → owners.length ≤ maxGroupOwners →
      key = g.sbtGroupCounter + 1 → group.groupId = key → group.owners = owners →
      SbtEffect g (.createGroupSbt caller owners metadata)
        { g with sbtGroupCounter := g.sbtGroupCounter + 1, sbtGroup := update g.sbtGroup key (some group) }
  | proposed {proposer id target action group key group' pid p} : g.sbtGroup id = some group →
      group.groupId = key → group'.groupId = key → group'.owners = group.owners → p.proposalId = pid →
      p.approvals = [proposer] → p.executed = false →
      SbtEffect g (.proposeGroupMembershipChange proposer id target action) (g.write key id pid group' p)
  | voted {voter id pid approve group p key pid'} : g.sbtGroup id = some group → g.sbtGroupProposal id pid = some p →
      p.executed = false → voter ∈ group.owners → voter ∉ p.approvals → group.groupId = key → p.proposalId = pid' →
      SbtEffect g (.voteGroupMembership voter id pid approve) (g.write key id pid' group (p.ballot voter approve))
  | executed {voter id pid approve group p key pid'} : g.sbtGroup id = some group →
      g.sbtGroupProposal id pid = some p → p.executed = false → voter ∈ group.owners → voter ∉ p.approvals →
      group.groupId = key → p.proposalId = pid' →
      group.quorumThreshold ≤ (p.ballot voter approve).approvals.length →
      SbtEffect g (.voteGroupMembership voter id pid approve)
        (g.write key id pid' (executeMembershipChange group (p.ballot voter approve))
          { p.ballot voter approve with executed := true })

@[simp] theorem ballot_proposalId (p : GroupMembershipProposal) (voter : Address) (approve : Bool) :
    (p.ballot voter approve).proposalId = p.proposalId := by
  unfold GroupMembershipProposal.ballot
  split <;> rfl

@[simp] theorem ballot_executed (p : GroupMembershipProposal) (voter : Address) (approve : Bool) :
    (p.ballot voter approve).executed = p.executed := by
  unfold GroupMembershipProposal.ballot
  split <;> rfl

@[simp] theorem executeMembershipChange_groupId (group : GroupSbt) (p : GroupMembershipProposal) :
    (executeMembershipChange group p).groupId = group.groupId := by
  unfold executeMembershipChange
  split <;> rfl

theorem yields_validateAction {ctx : Context} (owners : List Address) (target : Address) (action : MembershipAction)
    (s : SbtStore) (Q : Unit → SbtStore → Prop) (h : Q () s) :
    Yields (validateAction owners target action) ctx s Q := by
  cases action with
  | add =>
    simp only [validateAction, yields_steps]
    exact fun _ _ => h
  | remove =>
    simp only [validateAction, yields_steps]
    exact fun _ _ => h

theorem yields_sbtOp {ctx : Context} (op : SbtOp) (s : SbtStore) :
    Yields op.run ctx s fun _ t => SbtEffect s.groups op t.groups := by
  cases op with
  | createGroupSbt caller owners metadata =>
    simp only [SbtOp.run, createGroupSbt, nextGroupId, saveGroup, discard, yields_parts, yields_steps,
      yields_requireAuth, yields_u64]
    refine (yields_true _ _ _).mono fun _ access _ => ?_
    intro _ howners _ _ _
    exact .created howners.1 howners.2 rfl rfl rfl
  | proposeGroupMembershipChange proposer id target action =>
    simp only [SbtOp.run, proposeGroupMembershipChange, loadGroup, saveGroup, saveProposal, discard, yields_parts,
      yields_steps, yields_requireAuth, yields_u64]
    refine (yields_true _ _ _).mono fun _ access _ => ?_
    intro _ group hgroup _
    refine yields_validateAction _ _ _ _ _ ?_
    intro _
    exact .proposed hgroup rfl rfl rfl rfl rfl rfl
  | voteGroupMembership voter id pid approve =>
    simp only [SbtOp.run, voteGroupMembership, loadGroup, loadProposal, saveGroup, saveProposal, yields_parts,
      yields_steps, yields_requireAuth, yields_ite]
    refine (yields_true _ _ _).mono fun _ access _ => ?_
    intro _ group hgroup proposal hproposal hopen hvoter hnew
    constructor
    · intro hquorum
      refine .executed hgroup hproposal hopen hvoter hnew.1 ?_ ?_ hquorum
      · exact (executeMembershipChange_groupId _ _).symm
      · exact (ballot_proposalId _ _ _).symm
    · intro _
      refine .voted hgroup hproposal hopen hvoter hnew.1 ?_ ?_
      · rfl
      · exact (ballot_proposalId _ _ _).symm

theorem sbt_of_exec {s : Situated World SbtStore} {signers : List Address} {op : SbtOp} {t : SbtStore}
    (he : sbtGroups.exec s signers op = some t) : SbtEffect s.store.groups op t.groups :=
  Component.exec_yields (C := sbtGroups) (yields_sbtOp op s.store) he

/-! ## The rule -/

structure GroupSbt.Sound (group : GroupSbt) : Prop where
  some : group.owners ≠ []
  distinct : group.owners.Nodup
  few : group.owners.length ≤ maxGroupOwners

/-- A proposal that the call executes has the approval of more than half of the distinct owners of that moment. -/
def ByMajority (g g' : SbtGroups) : Prop :=
  ∀ id pid group p p', g.sbtGroup id = some group → g.sbtGroupProposal id pid = some p →
    g'.sbtGroupProposal id pid = some p' → p.executed = false → p'.executed = true →
      group.owners.dedup.length < 2 * (group.owners.dedup.filter (· ∈ p'.approvals)).length

/-- The owners of every group are some, distinct and few, and a majority has decided every change. -/
structure MajorityRules (h : SbtHistory) (s : Situated World SbtStore) : Prop where
  owners : ∀ id group, s.store.groups.sbtGroup id = some group → group.Sound
  decided : ∀ e ∈ h, ∀ d ∈ sbtGroups.done e.1 e.2, ByMajority e.1.store.groups d.2.groups

/-- The change still makes sense for these owners, and whoever approved it is one of them. -/
def GroupSbt.Fits (group : GroupSbt) (proposal : GroupMembershipProposal) : Prop :=
  (∀ a ∈ proposal.approvals, a ∈ group.owners) ∧
    match proposal.action with
    | .add => proposal.target ∉ group.owners ∧ group.owners.length < maxGroupOwners
    | .remove => ∃ a ∈ group.owners, a ≠ proposal.target

instance GroupSbt.fitsDecidable (group : GroupSbt) (proposal : GroupMembershipProposal) :
    Decidable (group.Fits proposal) := by
  unfold GroupSbt.Fits
  split <;> infer_instance

/-- A group is created with distinct owners, and a proposal that a vote executes fits the group. -/
def SbtOp.Fits (g : SbtGroups) : SbtOp → Prop
  | .createGroupSbt _ owners _ => owners.Nodup
  | .proposeGroupMembershipChange .. => True
  | .voteGroupMembership voter id pid approve => ∀ group ∈ g.sbtGroup id, ∀ p ∈ g.sbtGroupProposal id pid,
      group.quorumThreshold ≤ (p.ballot voter approve).approvals.length → group.Fits p

instance SbtOp.fitsDecidable (g : SbtGroups) (op : SbtOp) : Decidable (op.Fits g) := by
  unfold SbtOp.Fits
  split <;> infer_instance

/-! ## One call -/

/-- Records are stored under their own ids, the owners are sound, and nobody has approved twice. -/
structure SbtGroups.Sound (g : SbtGroups) : Prop where
  group : ∀ id group, g.sbtGroup id = some group → group.groupId = id ∧ group.Sound
  proposal : ∀ id pid p, g.sbtGroupProposal id pid = some p → p.proposalId = pid ∧ p.approvals.Nodup

section

variable {group : GroupSbt} {p : GroupMembershipProposal}

theorem ballot_change (voter : Address) (approve : Bool) :
    (p.ballot voter approve).target = p.target ∧ (p.ballot voter approve).action = p.action := by
  unfold GroupMembershipProposal.ballot
  split <;> exact ⟨rfl, rfl⟩

/-- The approvals after a vote: those before it, and perhaps the voter's. -/
theorem ballot_approvals (voter : Address) (approve : Bool) :
    (p.ballot voter approve).approvals = p.approvals ∨
      (p.ballot voter approve).approvals = p.approvals ++ [voter] := by
  cases approve with
  | true => exact .inr rfl
  | false => exact .inl rfl

theorem ballot_nodup {voter : Address} (approve : Bool) (hdistinct : p.approvals.Nodup) (hnew : voter ∉ p.approvals) :
    (p.ballot voter approve).approvals.Nodup := by
  rcases @ballot_approvals p voter approve with hsame | hmore
  · rwa [hsame]
  · rw [hmore, List.nodup_append]
    refine ⟨hdistinct, List.nodup_singleton voter, fun a ha b hb heq => hnew ?_⟩
    rw [List.mem_singleton] at hb
    rwa [← hb, ← heq]

/-- A change that fits the owners leaves them sound. -/
theorem GroupSbt.Sound.execute (h : group.Sound) (hfits : group.Fits p) (voter : Address) (approve : Bool) :
    (executeMembershipChange group (p.ballot voter approve)).Sound := by
  obtain ⟨htarget, haction⟩ := @ballot_change p voter approve
  obtain ⟨-, hchange⟩ := hfits
  unfold executeMembershipChange
  rw [haction, htarget]
  cases hact : p.action with
  | add =>
    rw [hact] at hchange
    obtain ⟨hnew, hroom⟩ := hchange
    refine ⟨by simp, ?_, ?_⟩
    · simp only [List.nodup_append, List.mem_singleton]
      refine ⟨h.distinct, List.nodup_singleton _, ?_⟩
      rintro a ha b rfl heq
      exact hnew (heq ▸ ha)
    · simp only [List.length_append, List.length_singleton]
      omega
  | remove =>
    rw [hact] at hchange
    obtain ⟨a, ha, hother⟩ := hchange
    refine ⟨?_, h.distinct.filter _, (List.length_filter_le _ _).trans h.few⟩
    exact List.ne_nil_of_mem (List.mem_filter.2 ⟨ha, by simpa using hother⟩)

/-- Distinct approvals of current owners that reach the threshold are those of a majority. -/
theorem majority_of_quorum (howners : group.owners.Nodup) {approvals : List Address} (hdistinct : approvals.Nodup)
    (hall : ∀ a ∈ approvals, a ∈ group.owners) (hquorum : group.quorumThreshold ≤ approvals.length) :
    group.owners.dedup.length < 2 * (group.owners.dedup.filter (· ∈ approvals)).length := by
  rw [howners.dedup]
  have hsubset : approvals ⊆ group.owners.filter (· ∈ approvals) := by
    intro a ha
    exact List.mem_filter.2 ⟨hall a ha, by simpa using ha⟩
  have hle := (List.subperm_of_subset hdistinct hsubset).length_le
  unfold GroupSbt.quorumThreshold at hquorum
  omega

end

section

variable {g g' : SbtGroups} {op : SbtOp}

theorem SbtGroups.Sound.write (h : g.Sound) {key id pid : Nat} {group : GroupSbt} {p : GroupMembershipProposal}
    (hgroup : group.groupId = key ∧ group.Sound) (hp : p.proposalId = pid ∧ p.approvals.Nodup) :
    (g.write key id pid group p).Sound := by
  constructor
  · intro key' stored hstored
    by_cases hkey : key' = key
    · subst hkey
      rw [write_group] at hstored
      cases hstored
      exact hgroup
    · rw [write_group_of_ne _ _ _ hkey] at hstored
      exact h.group key' stored hstored
  · intro id' pid' stored hstored
    by_cases hsame : id' = id ∧ pid' = pid
    · obtain ⟨rfl, rfl⟩ := hsame
      rw [write_proposal] at hstored
      cases hstored
      exact hp
    · rw [write_proposal_of_ne _ _ _ hsame] at hstored
      exact h.proposal id' pid' stored hstored

theorem SbtEffect.sound (he : SbtEffect g op g') (h : g.Sound) (hfits : op.Fits g) : g'.Sound := by
  cases he with
  | @created caller owners metadata key group hsome hfew hkey hid howners =>
    refine ⟨fun id stored hstored => ?_, h.proposal⟩
    by_cases heq : id = key
    · simp only [heq, update_self] at hstored
      cases hstored
      subst howners
      exact ⟨hid.trans heq.symm, hsome, hfits, hfew⟩
    · exact h.group id stored ((update_of_ne heq _ _).symm.trans hstored)
  | @proposed proposer id target action group key group' pid p hgroup hkey hsame howners hpid happrovals hopen =>
    obtain ⟨-, hsound⟩ := h.group id group hgroup
    refine h.write ⟨hsame, ?_⟩ ⟨hpid, ?_⟩
    · exact ⟨howners ▸ hsound.some, howners ▸ hsound.distinct, howners ▸ hsound.few⟩
    · rw [happrovals]
      exact List.nodup_singleton proposer
  | @voted voter id pid approve group p key pid' hgroup hp hopen hvoter hnew hkey hpid =>
    refine h.write ⟨hkey, (h.group id group hgroup).2⟩ ⟨(ballot_proposalId ..).trans hpid, ?_⟩
    exact ballot_nodup approve (h.proposal id pid p hp).2 hnew
  | @executed voter id pid approve group p key pid' hgroup hp hopen hvoter hnew hkey hpid hquorum =>
    refine h.write ⟨(executeMembershipChange_groupId ..).trans hkey, ?_⟩ ⟨(ballot_proposalId ..).trans hpid, ?_⟩
    · exact (h.group id group hgroup).2.execute (hfits group hgroup p hp hquorum) voter approve
    · exact ballot_nodup approve (h.proposal id pid p hp).2 hnew

/-- Writing a proposal that is not executed executes none. -/
theorem byMajority_of_open {key id pid : Nat} {group : GroupSbt} {p : GroupMembershipProposal}
    (hp : p.executed = false) : ByMajority g (g.write key id pid group p) := by
  intro id' pid' group' q q' hgroup hq hq' hopen hexecuted
  by_cases hsame : id' = id ∧ pid' = pid
  · obtain ⟨rfl, rfl⟩ := hsame
    rw [write_proposal] at hq'
    cases hq'
    rw [hp] at hexecuted
    cases hexecuted
  · rw [write_proposal_of_ne _ _ _ hsame, hq] at hq'
    cases hq'
    rw [hopen] at hexecuted
    cases hexecuted

theorem SbtEffect.byMajority (he : SbtEffect g op g') (h : g.Sound) (hfits : op.Fits g) : ByMajority g g' := by
  cases he with
  | created =>
    intro id pid group p p' hgroup hp hp' hopen hexecuted
    rw [hp] at hp'
    cases hp'
    rw [hopen] at hexecuted
    cases hexecuted
  | proposed _ _ _ _ _ _ hopen => exact byMajority_of_open hopen
  | voted _ _ hopen _ _ _ _ => exact byMajority_of_open ((ballot_executed ..).trans hopen)
  | @executed voter id pid approve group p key pid' hgroup hp hopen hvoter hnew hkey hpid hquorum =>
    intro id₁ pid₁ group₁ q q' hgroup₁ hq hq' hqopen hexecuted
    have hown := (h.proposal id pid p hp).1
    by_cases hsame : id₁ = id ∧ pid₁ = pid'
    · obtain ⟨rfl, rfl⟩ := hsame
      rw [hgroup] at hgroup₁
      cases hgroup₁
      rw [write_proposal] at hq'
      cases hq'
      refine majority_of_quorum (h.group id₁ group hgroup).2.distinct
        (ballot_nodup approve (h.proposal id₁ pid p hp).2 hnew) (fun a ha => ?_) hquorum
      obtain ⟨happroved, -⟩ := hfits group hgroup p hp hquorum
      rcases @ballot_approvals p voter approve with hsame | hmore
      · exact happroved a (hsame ▸ ha)
      · rcases List.mem_append.1 (hmore ▸ ha) with ha | ha
        · exact happroved a ha
        · rwa [List.mem_singleton.1 ha]
    · -- any other proposal is as it was
      rw [write_proposal_of_ne _ _ _ hsame, hq] at hq'
      cases hq'
      rw [hqopen] at hexecuted
      cases hexecuted

end

/-! ## Runs -/

theorem SbtGroups.sound_empty : SbtGroups.empty.Sound :=
  ⟨fun _ _ h => (by cases h), fun _ _ _ h => (by cases h)⟩

/-- In every run that creates groups with distinct owners and executes only what
fits them, the owners stay sound and a majority decides every change. -/
theorem group_majority {world : World} {access : Access} {h s} (hr : Run sbtGroups.Step (sbtStart world access) h s)
    (hok : Along (sbtGroups.WhenDone fun s op => op.Fits s.store.groups) h) : MajorityRules h s := by
  have hsound : s.store.groups.Sound ∧
      ∀ e ∈ h, ∀ d ∈ sbtGroups.done e.1 e.2, ByMajority e.1.store.groups d.2.groups := by
    refine Component.inv_throughout (C := sbtGroups) (I := fun h s => s.store.groups.Sound ∧
      ∀ e ∈ h, ∀ d ∈ sbtGroups.done e.1 e.2, ByMajority e.1.store.groups d.2.groups)
      ⟨SbtGroups.sound_empty, List.forall_mem_nil _⟩ ?_ ?_ hr hok.throughout
    · rintro h s signers op t - ⟨hsound, hdecided⟩ hfits he
      have heffect := sbt_of_exec he
      refine ⟨heffect.sound hsound hfits, List.forall_mem_cons.2 ⟨fun d hd => ?_, hdecided⟩⟩
      rw [Component.done_call he] at hd
      cases hd
      exact heffect.byMajority hsound hfits
    · rintro h s e s' ⟨hsound, hdecided⟩ hnone hs'
      constructor
      · rcases hs' with rfl | ⟨-, hsame⟩
        · exact hsound
        · rwa [hsame]
      · refine List.forall_mem_cons.2 ⟨fun d hd => ?_, hdecided⟩
        rw [hnone] at hd
        cases hd
  exact ⟨fun id group hgroup => (hsound.1.group id group hgroup).2, hsound.2⟩

/-! ## Two groups -/

/-- Three owners admit account 5 with two approvals. -/
def admittedMember : List (List Address × SbtOp) :=
  [([2], .createGroupSbt 2 [2, 3, 4] []), ([2], .proposeGroupMembershipChange 2 1 5 .add),
    ([3], .voteGroupMembership 3 1 1 true)]

theorem group_majority_admitted :
    MajorityRules (sbtGroups.trace (sbtStart sampleWorld start.store.access) [] admittedMember)
        (sbtGroups.play (sbtStart sampleWorld start.store.access) admittedMember) ∧
      ((sbtGroups.play (sbtStart sampleWorld start.store.access) admittedMember).store.groups.sbtGroup 1).map
        (·.owners) = some [2, 3, 4, 5] := by
  constructor
  · refine group_majority (Component.run_play sbtGroups .nil admittedMember) ?_
    unfold Along
    decide +kernel
  · decide +kernel

/-- Account 2 proposes to remove each of the two owners, itself first, and account 3 approves that. -/
def removedMember : List (List Address × SbtOp) :=
  [([2], .createGroupSbt 2 [2, 3] []), ([2], .proposeGroupMembershipChange 2 1 2 .remove),
    ([2], .proposeGroupMembershipChange 2 1 3 .remove), ([3], .voteGroupMembership 3 1 1 true)]

/-- The other owner then rejects its own removal: the approval of the one who has
left is enough, and the group is empty. -/
theorem group_emptied :
    (¬ ∀ world access h s, Run sbtGroups.Step (sbtStart world access) h s →
      ∀ id group, s.store.groups.sbtGroup id = some group → group.Sound) ∧
    ¬ ∀ world access h s, Run sbtGroups.Step (sbtStart world access) h s →
      ∀ e ∈ h, ∀ d ∈ sbtGroups.done e.1 e.2, ByMajority e.1.store.groups d.2.groups := by
  have hrejected : sbtGroups.exec (sbtGroups.play (sbtStart sampleWorld start.store.access) removedMember) [3]
      (.voteGroupMembership 3 1 2 false) = some _ := Component.exec_of_isSome (by decide +kernel)
  have hbegin : Run sbtGroups.Step (sbtStart sampleWorld start.store.access) [] _ := .nil
  have hr := (Component.run_play sbtGroups hbegin removedMember).snoc (.call _ [3] (.voteGroupMembership 3 1 2 false))
  constructor
  · intro hclaim
    have hempty : ((sbtGroups.after (sbtGroups.play (sbtStart sampleWorld start.store.access) removedMember) [3]
        (.voteGroupMembership 3 1 2 false)).store.groups.sbtGroup 1).map (·.owners) = some [] := by decide +kernel
    obtain ⟨group, hgroup, howners⟩ := Option.map_eq_some_iff.1 hempty
    exact (hclaim _ _ _ _ hr 1 group hgroup).some howners
  · intro hclaim
    have hmajority := hclaim _ _ _ _ hr _ List.mem_cons_self _ (Component.done_call hrejected)
    have hbefore : ((sbtGroups.play (sbtStart sampleWorld start.store.access) removedMember).store.groups.sbtGroup
        1).map (·.owners) = some [3] := by decide +kernel
    have hopen : ((sbtGroups.play (sbtStart sampleWorld start.store.access)
        removedMember).store.groups.sbtGroupProposal 1 2).map (·.executed) = some false := by decide +kernel
    have hexecuted : ((sbtGroups.after (sbtGroups.play (sbtStart sampleWorld start.store.access) removedMember) [3]
        (.voteGroupMembership 3 1 2 false)).store.groups.sbtGroupProposal 1 2).map
          (fun p => (p.executed, p.approvals)) = some (true, [2]) := by decide +kernel
    obtain ⟨group, hgroup, howners⟩ := Option.map_eq_some_iff.1 hbefore
    obtain ⟨p, hp, hpending⟩ := Option.map_eq_some_iff.1 hopen
    obtain ⟨p', hp', hpair⟩ := Option.map_eq_some_iff.1 hexecuted
    obtain ⟨hdone, happrovals⟩ := Prod.ext_iff.1 hpair
    have hmore := hmajority 1 2 group p p' hgroup hp hp' hpending hdone
    simp only at happrovals
    rw [howners, happrovals] at hmore
    exact absurd hmore (by decide)

end QuorumCredit
