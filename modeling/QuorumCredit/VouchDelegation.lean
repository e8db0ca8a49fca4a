import QuorumCredit.MovedStakes
import QuorumCredit.Stakes
import QuorumCredit.Host.Component
import QuorumCredit.Host.Graph
/-!
# Vouch delegation

The delegate of a vouch record: `delegate_vouch` names one after a search for a
way back to the voucher, and `transfer_vouch` hands the record on with the
delegate it has. The search gives up at ten addresses, and the transfer searches
nothing, so the delegates stay free of cycles only while neither matters.
-/

open Host Function

namespace QuorumCredit

/-- The storage, with the lookup table of delegations. -/
structure DelegationStore where
  store : Store
  -- by borrower, voucher and token
  vouchDelegation : Address → Address → Address → Option Address

instance : Host.Part DelegationStore Store where
  get := DelegationStore.store
  set t s := { s with store := t }

/-! ## The calls -/

/-- The delegates of the address's records, as its history lists their borrowers. -/
def Vouching.delegatesOf (x : Vouching) (voucher : Address) : List Address :=
  (x.voucherHistory voucher).flatMap fun borrower =>
    (x.vouchesOf borrower).filterMap fun v => if v.voucher = voucher then v.delegate else none

def maxDepth : Nat := 10

/-- Bounded traversal from the delegate, to see whether it ever comes back to the voucher. -/
def detectCircularDelegation (voucher delegate : Address) : Contract Vouching Unit := do
  require (delegate ≠ voucher) (.error .circularDelegation)
  let x ← look id
  require (search x.delegatesOf voucher maxDepth maxDepth [delegate] [delegate] = false) (.error .circularDelegation)

/-- The voucher's first record in the token. -/
def findVouchIn (voucher token : Address) (vouches : List VouchRecord) : Option VouchRecord :=
  vouches.find? fun v => v.voucher = voucher ∧ v.token = token

/-- The list with another delegate in that record. -/
def setDelegate (voucher token : Address) (delegate : Option Address) : List VouchRecord → List VouchRecord
  | [] => []
  | v :: vs =>
    if v.voucher = voucher ∧ v.token = token then { v with delegate } :: vs
    else v :: setDelegate voucher token delegate vs

/-- What `delegate_vouch` and `revoke_delegation` do to the record. -/
def storeDelegate (voucher borrower token : Address) (delegate : Option Address) : Contract Vouching Unit := do
  let vouches ← orFail (← look (·.vouches borrower)) (.error .noVouchesForBorrower)
  let _ ← orFail (findVouchIn voucher token vouches) (.error .voucherNotFound)
  setVouches borrower (setDelegate voucher token delegate vouches)

def delegateVouch (voucher borrower delegate token : Address) : Contract DelegationStore Unit := do
  requireAuth voucher
  requireNotThawing
  require (delegate ≠ voucher) (.error .invalidStateTransition)
  detectCircularDelegation voucher delegate
  storeDelegate voucher borrower token (some delegate)
  alter fun s : DelegationStore =>
    { s with
      vouchDelegation :=
        update s.vouchDelegation borrower
          (update (s.vouchDelegation borrower) voucher
            (update (s.vouchDelegation borrower voucher) token (some delegate))) }

/-- The record's delegate goes; the lookup table keeps its entry. -/
def revokeDelegation (voucher borrower token : Address) : Contract DelegationStore Unit := do
  requireAuth voucher
  requireNotThawing
  storeDelegate voucher borrower token none

inductive DelegationOp where
  | vouch (voucher borrower : Address) (stake : Int) (token : Address) (chainId : Nat)
  | delegateVouch (voucher borrower delegate token : Address)
  | revokeDelegation (voucher borrower token : Address)
  | transferVouch (src dst borrower : Address)

def DelegationOp.run : DelegationOp → Contract DelegationStore Unit
  | .vouch voucher borrower stake token chainId => QuorumCredit.vouch voucher borrower stake token chainId
  | .delegateVouch voucher borrower delegate token => QuorumCredit.delegateVouch voucher borrower delegate token
  | .revokeDelegation voucher borrower token => QuorumCredit.revokeDelegation voucher borrower token
  | .transferVouch src dst borrower => QuorumCredit.transferVouch src dst borrower

/-- The four calls as a part of the contract; the others may do what they like but
change the vouch records and histories. -/
def vouchDelegation : Component World (List Address) Context Failure DelegationStore DelegationOp where
  run := DelegationOp.run
  context w signers := { w with signers }
  drift w s w' s' :=
    w.now ≤ w'.now ∧ w'.contract = w.contract ∧ s'.store.records = s.store.records ∧
      s'.store.vault.vouching.voucherHistory = s.store.vault.vouching.voucherHistory

/-- The contract just after `initialize`. -/
def delegationStart (world : World) (bank : Ledger) : Situated World DelegationStore :=
  ⟨world, ⟨(genesis world bank).store, fun _ _ _ => none⟩⟩

/-! ## What the calls do -/

/-- The records and histories a call that goes through leaves. -/
inductive DelegationEffect (s t : Store) : DelegationOp → Prop
  | vouched {voucher b stake token chainId now record} : record.delegate = none →
      t.vault.vouching = s.vault.vouching.committed now b record →
      DelegationEffect s t (.vouch voucher b stake token chainId)
  | delegated {voucher b delegate token} :
      search s.vault.vouching.delegatesOf voucher maxDepth maxDepth [delegate] [delegate] = false → delegate ≠ voucher →
      t.vault.vouching = s.vault.vouching.setVouches b (setDelegate voucher token (some delegate) (s.records b)) →
      DelegationEffect s t (.delegateVouch voucher b delegate token)
  | revoked {voucher b token} :
      t.vault.vouching = s.vault.vouching.setVouches b (setDelegate voucher token none (s.records b)) →
      DelegationEffect s t (.revokeDelegation voucher b token)
  | transferred {src dst b v} : findVouch src (s.records b) = some v →
      t.vault.vouching = s.vault.vouching.transferred src dst b v.token →
        DelegationEffect s t (.transferVouch src dst b)

section

variable {ctx : Context}

theorem yields_storeDelegate (voucher b token : Address) (delegate : Option Address) (x : Vouching) :
    Yields (storeDelegate voucher b token delegate) ctx x fun _ y =>
      y = x.setVouches b (setDelegate voucher token delegate (x.vouchesOf b)) := by
  simp only [storeDelegate, setVouches, yields_steps]
  intro vouches hvouches _ _
  rw [Vouching.vouchesOf, hvouches, Option.getD_some]

theorem yields_delegationOp (op : DelegationOp) (s : DelegationStore) :
    Yields op.run ctx s fun _ t => DelegationEffect s.store t.store op := by
  cases op with
  | vouch voucher b stake token chainId =>
    refine (yields_zoom _ _ _ _).2 ((vouch_stores voucher b stake token chainId).mono ?_)
    rintro _ t ⟨record, -, -, hdelegate, hvault⟩
    exact .vouched hdelegate (congrArg Vault.vouching hvault)
  | delegateVouch voucher b delegate token =>
    simp only [DelegationOp.run, delegateVouch, detectCircularDelegation, yields_steps, yields_requireAuth,
      yields_parts]
    intro _
    refine (yields_true _ _ _).mono fun _ a _ => ?_
    intro hne _ hsearch
    refine (yields_storeDelegate _ _ _ _ _).mono ?_
    rintro _ _ rfl
    exact .delegated hsearch hne rfl
  | revokeDelegation voucher b token =>
    simp only [DelegationOp.run, revokeDelegation, yields_bind, yields_requireAuth, yields_parts]
    intro _
    refine (yields_true _ _ _).mono fun _ a _ => ?_
    refine (yields_storeDelegate _ _ _ _ _).mono ?_
    rintro _ _ rfl
    exact .revoked rfl
  | transferVouch src dst b =>
    refine (yields_zoom _ _ _ _).2 ((transferVouch_staked src dst b).mono ?_)
    intro _ t ht
    cases ht with
    | transferred _ hfind _ _ hvouching _ => exact .transferred hfind hvouching

end

theorem delegationEffect_of {s : Situated World DelegationStore} {signers : List Address} {op : DelegationOp}
    {t : DelegationStore} (h : vouchDelegation.exec s signers op = some t) :
      DelegationEffect s.store.store t.store op :=
  Component.exec_yields (Q := fun t => DelegationEffect s.store.store t.store op) (yields_delegationOp op s.store) h

/-! ## The graph of delegates -/

theorem mem_setDelegate {voucher token : Address} {delegate : Option Address} {vouches : List VouchRecord}
    {r : VouchRecord}
    (h : r ∈ setDelegate voucher token delegate vouches) :
    (r.voucher = voucher ∧ r.delegate = delegate ∧ ∃ r' ∈ vouches, r'.voucher = voucher) ∨ r ∈ vouches := by
  induction vouches with
  | nil => cases h
  | cons v vs ih =>
    rw [setDelegate] at h
    split at h
    case isTrue hv =>
      rcases List.mem_cons.1 h with rfl | h
      · exact .inl ⟨hv.1, rfl, v, List.mem_cons_self, hv.1⟩
      · exact .inr (List.mem_cons_of_mem v h)
    case isFalse =>
      rcases List.mem_cons.1 h with rfl | h
      · exact .inr List.mem_cons_self
      · rcases ih h with ⟨hname, hdelegate, r', hr', hname'⟩ | hold
        · exact .inl ⟨hname, hdelegate, r', List.mem_cons_of_mem v hr', hname'⟩
        · exact .inr (List.mem_cons_of_mem v hold)

namespace Vouching

variable {x y : Vouching}

/-- A record of `a`, behind any borrower, has the delegate `d`. -/
def Delegates (x : Vouching) (a d : Address) : Prop := ∃ b, ∃ r ∈ x.vouchesOf b, r.voucher = a ∧ r.delegate = some d

theorem delegates_of_mem {a d : Address} (h : d ∈ x.delegatesOf a) : x.Delegates a d := by
  obtain ⟨b, -, hd⟩ := List.mem_flatMap.1 h
  obtain ⟨r, hr, hr'⟩ := List.mem_filterMap.1 hd
  split at hr'
  case isTrue hname => exact ⟨b, r, hr, hname, hr'⟩
  case isFalse => cases hr'

/-- Through the histories the search sees every delegate. -/
theorem Indexed.delegates_iff (hx : x.Indexed) {a d : Address} : x.Delegates a d ↔ d ∈ x.delegatesOf a := by
  refine ⟨?_, delegates_of_mem⟩
  rintro ⟨b, r, hr, rfl, hd⟩
  refine List.mem_flatMap.2 ⟨b, hx b r hr, List.mem_filterMap.2 ⟨r, hr, ?_⟩⟩
  rw [if_pos rfl, hd]

/-- Where one borrower's records are replaced, a delegate is an old one or that of a new record. -/
theorem Delegates.of_rewrite {a d b : Address} {vouches : List VouchRecord} (h : y.Delegates a d)
    (hrecords : y.vouchesOf = update x.vouchesOf b vouches) :
    x.Delegates a d ∨ ∃ r ∈ vouches, r ∉ x.vouchesOf b ∧ r.voucher = a ∧ r.delegate = some d := by
  obtain ⟨b', r, hr, hname, hd⟩ := h
  rw [hrecords, update_apply] at hr
  split at hr
  case isTrue =>
    by_cases hold : r ∈ x.vouchesOf b
    · exact .inl ⟨b, r, hold, hname, hd⟩
    · exact .inr ⟨r, hr, hold, hname, hd⟩
  case isFalse => exact .inl ⟨b', r, hr, hname, hd⟩

theorem Indexed.leads_iff (hx : x.Indexed) {a d : Address} :
    Relation.ReflTransGen x.Delegates a d ↔ Relation.ReflTransGen (fun a d => d ∈ x.delegatesOf a) a d := by
  have hsame : x.Delegates = fun a d => d ∈ x.delegatesOf a := by
    funext a d
    exact propext hx.delegates_iff
  rw [hsame]

end Vouching

/-- The call cannot close a cycle: where the delegate leads back to the voucher, there
are few enough addresses for the search to see it; and no record is handed on to an
address that its delegate leads to. -/
def DelegationOp.forward (x : Vouching) : DelegationOp → Prop
  | .delegateVouch voucher _ delegate _ =>
    Relation.ReflTransGen x.Delegates delegate voucher → Few x.delegatesOf voucher maxDepth delegate
  | .transferVouch src dst b => ∀ v, findVouch src (x.vouchesOf b) = some v → ∀ d, v.delegate = some d →
    ¬ Relation.ReflTransGen x.Delegates d dst
  | _ => True

/-- A delegate with few addresses behind it is refused if it leads back to the voucher. -/
theorem detects {x : Vouching} (hx : x.Indexed) {voucher delegate : Address} (hne : delegate ≠ voucher)
    (hfew : Few x.delegatesOf voucher maxDepth delegate) (hleads : Relation.ReflTransGen x.Delegates delegate voucher) :
    search x.delegatesOf voucher maxDepth maxDepth [delegate] [delegate] = true :=
  search_finds hfew hne (hx.leads_iff.1 hleads)

theorem DelegationEffect.indexed {s t : Store} {op : DelegationOp} (he : DelegationEffect s t op)
    (hx : s.vault.vouching.Indexed) : t.vault.vouching.Indexed := by
  have hstored {voucher b token : Address} {delegate : Option Address}
      (ht : t.vault.vouching = s.vault.vouching.setVouches b (setDelegate voucher token delegate (s.records b))) :
      t.vault.vouching.Indexed := by
    rw [ht]
    refine hx.rewrite (Vouching.setVouches_records ..) (fun r hr => ?_) rfl
    rcases mem_setDelegate hr with ⟨hname, -, r', hr', hname'⟩ | hold
    · exact ⟨r', hr', hname'.trans hname.symm⟩
    · exact ⟨r, hold, rfl⟩
  cases he with
  | vouched _ ht =>
    rw [ht]
    exact hx.committed _ _ _
  | delegated _ _ ht => exact hstored ht
  | revoked ht => exact hstored ht
  | transferred _ ht =>
    rw [ht]
    exact hx.transferred _ _ _ _

theorem DelegationEffect.acyclic {s t : Store} {op : DelegationOp} (he : DelegationEffect s t op)
    (hx : s.vault.vouching.Indexed) (h : Acyclic s.vault.vouching.Delegates) (hforward : op.forward s.vault.vouching) :
    Acyclic t.vault.vouching.Delegates := by
  cases he with
  | vouched hnone ht =>
    refine h.mono fun a d had => ?_
    rcases had.of_rewrite (ht ▸ Vouching.committed_vouchesOf ..) with hold | ⟨r, hr, hnew, -, hd⟩
    · exact hold
    · rcases List.mem_append.1 hr with hr | hr
      · exact absurd hr hnew
      · rw [List.mem_singleton.1 hr, hnone] at hd
        cases hd
  | @delegated voucher b delegate token hsearch hne ht =>
    have hapart : ¬ Relation.ReflTransGen s.vault.vouching.Delegates delegate voucher := by
      intro hleads
      rw [detects hx hne (hforward hleads) hleads] at hsearch
      cases hsearch
    refine h.insert (fun a d had => ?_) hapart
    rcases had.of_rewrite (ht ▸ Vouching.setVouches_records ..) with hold | ⟨r, hr, hnew, hname, hd⟩
    · exact .inl hold
    · rcases mem_setDelegate hr with ⟨hvoucher, hdelegate, -⟩ | hr
      · rw [hdelegate] at hd
        exact .inr ⟨hname ▸ hvoucher, (Option.some.inj hd).symm⟩
      · exact absurd hr hnew
  | revoked ht =>
    refine h.mono fun a d had => ?_
    rcases had.of_rewrite (ht ▸ Vouching.setVouches_records ..) with hold | ⟨r, hr, hnew, -, hd⟩
    · exact hold
    · rcases mem_setDelegate hr with ⟨-, hdelegate, -⟩ | hr
      · rw [hdelegate] at hd
        cases hd
      · exact absurd hr hnew
  | @transferred src dst b v hfind ht =>
    -- the one new edge is that of the record handed on
    have hedge (a d : Address) (had : t.vault.vouching.Delegates a d) :
        s.vault.vouching.Delegates a d ∨ a = dst ∧ v.delegate = some d := by
      rcases had.of_rewrite (ht ▸ Vouching.transferred_vouchesOf ..) with hold | ⟨r, hr, hnew, hname, hd⟩
      · exact .inl hold
      · rcases mem_setVoucher hr with hr | ⟨v', hfind', rfl⟩
        · exact absurd hr hnew
        · rw [show findVouch src (s.vault.vouching.vouchesOf b) = some v from hfind] at hfind'
          cases hfind'
          exact .inr ⟨hname.symm, hd⟩
    cases hdelegate : v.delegate with
    | none =>
      refine h.mono fun a d had => (hedge a d had).resolve_right fun hnew => ?_
      rw [hdelegate] at hnew
      cases hnew.2
    | some delegate =>
      refine h.insert (fun a d had => (hedge a d had).imp_right fun hnew => ?_) (hforward v hfind delegate hdelegate)
      rw [hdelegate] at hnew
      exact ⟨hnew.1, (Option.some.inj hnew.2).symm⟩

/-! ## Every run -/

theorem forward_run {world : World} {bank : Ledger} {h s}
    (hr : Run vouchDelegation.Step (delegationStart world bank) h s)
    (hok : Along (vouchDelegation.WhenDone fun s op => op.forward s.store.store.vault.vouching) h) :
    s.store.store.vault.vouching.Indexed ∧ Acyclic s.store.store.vault.vouching.Delegates := by
  refine Component.inv_throughout
    (I := fun _ s => s.store.store.vault.vouching.Indexed ∧ Acyclic s.store.store.vault.vouching.Delegates) ?_ ?_ ?_ hr
    hok.throughout
  · refine ⟨fun b r hr => ?_, fun a ha => ?_⟩
    · cases hr
    · obtain ⟨d, ⟨b, r, hr, -⟩, -⟩ := Relation.TransGen.head'_iff.1 ha
      cases hr
  · intro h s signers op t _ hi hforward hexec
    have he := delegationEffect_of hexec
    exact ⟨he.indexed hi.1, he.acyclic hi.1 hi.2 hforward⟩
  · intro h s e s' hi _ hsame
    rcases hsame with rfl | ⟨-, -, hrecords, hhistory⟩
    · exact hi
    · have hstays : s'.store.store.vault.vouching.vouchesOf = s.store.store.vault.vouching.vouchesOf := hrecords
      unfold Vouching.Indexed Acyclic Vouching.Delegates
      rw [hstays, hhistory]
      exact hi

/-- In every run of the four calls in which none can close a cycle, the delegates have
no cycle, and the search refuses each delegate that leads back to the voucher, if
few addresses are to be searched. -/
theorem delegates_acyclic {world : World} {bank : Ledger} {h s}
    (hr : Run vouchDelegation.Step (delegationStart world bank) h s)
    (hok : Along (vouchDelegation.WhenDone fun s op => op.forward s.store.store.vault.vouching) h) :
    Acyclic s.store.store.vault.vouching.Delegates ∧
      ∀ (ctx : Context) voucher delegate, Few s.store.store.vault.vouching.delegatesOf voucher maxDepth delegate →
        Relation.ReflTransGen s.store.store.vault.vouching.Delegates delegate voucher →
          detectCircularDelegation voucher delegate ctx s.store.store.vault.vouching =
            .error (.error .circularDelegation) := by
  obtain ⟨hindexed, hacyclic⟩ := forward_run hr hok
  refine ⟨hacyclic, fun ctx voucher delegate hfew hleads => ?_⟩
  unfold detectCircularDelegation
  by_cases hne : delegate = voucher
  · rw [run_bind_error]
    rw [run_require, if_neg (not_not.2 hne)]
  · have hfound := detects hindexed hne hfew hleads
    simp only [run_bind, run_require, if_pos hne, run_look, id_eq, hfound]
    rfl

/-- Account 2 delegates its record to account 3, and hands it on to account 4. -/
def delegatedOn : List (List Address × DelegationOp) :=
  [([2], .vouch 2 10 1000000 100 0), ([2], .delegateVouch 2 10 3 100), ([2], .transferVouch 2 4 10)]

/-- An address without delegates leads nowhere. -/
theorem not_leads {x : Vouching} (hx : x.Indexed) {a b : Address} (h : x.delegatesOf a = []) (hne : a ≠ b) :
    ¬ Relation.ReflTransGen x.Delegates a b := by
  intro hleads
  rcases Relation.ReflTransGen.cases_head hleads with hab | ⟨c, hc, -⟩
  · exact hne hab
  · rw [hx.delegates_iff, h] at hc
    cases hc

theorem delegates_acyclic_handed_on :
    let s := vouchDelegation.play (delegationStart sampleWorld sampleBank) delegatedOn
    s.store.store.vault.vouching.delegatesOf 4 = [3] ∧ Acyclic s.store.store.vault.vouching.Delegates := by
  intro s
  have hstart : Run vouchDelegation.Step (delegationStart sampleWorld sampleBank) [] _ := .nil
  have hfirst : Along (vouchDelegation.WhenDone fun s op => op.forward s.store.store.vault.vouching)
      (vouchDelegation.trace (delegationStart sampleWorld sampleBank) [] (delegatedOn.take 2)) := by
    refine List.forall_mem_cons.2 ⟨?_, List.forall_mem_cons.2 ⟨?_, List.forall_mem_nil _⟩⟩
    · exact Component.whenDone_call (fun _ => Few.of_nil (by decide +kernel) (by decide)) [2]
    · exact Component.whenDone_call trivial [2]
  have hindexed := (forward_run (Component.run_play vouchDelegation hstart (delegatedOn.take 2)) hfirst).1
  have hok : Along (vouchDelegation.WhenDone fun s op => op.forward s.store.store.vault.vouching)
      (vouchDelegation.trace (delegationStart sampleWorld sampleBank) [] delegatedOn) := by
    refine List.forall_mem_cons.2 ⟨Component.whenDone_call ?_ [2], hfirst⟩
    intro v hv delegate hdelegate
    have hthree : ((findVouch 2 ((vouchDelegation.play (delegationStart sampleWorld sampleBank)
        (delegatedOn.take 2)).store.store.vault.vouching.vouchesOf 10)).bind (·.delegate)) = some 3 := by decide +kernel
    have hv' : findVouch 2 ((vouchDelegation.play (delegationStart sampleWorld sampleBank)
        (delegatedOn.take 2)).store.store.vault.vouching.vouchesOf 10) = some v := hv
    rw [hv', Option.bind_some, hdelegate] at hthree
    cases hthree
    exact not_leads hindexed (by decide +kernel) (by decide)
  exact ⟨by decide +kernel, (delegates_acyclic (Component.run_play vouchDelegation hstart delegatedOn) hok).1⟩

/-! ## Cycles -/

/-- Account 2 hands its record to the very account it has delegated it to. -/
def delegatedToItself : List (List Address × DelegationOp) :=
  [([2], .vouch 2 10 1000000 100 0), ([2], .delegateVouch 2 10 3 100), ([2], .transferVouch 2 3 10)]

/-- Accounts 2 to 12 delegate, each to the next. -/
def delegatedDown : List (List Address × DelegationOp) :=
  (List.range 11).flatMap fun i =>
    [([i + 2], .vouch (i + 2) 20 1000000 100 0), ([i + 2], .delegateVouch (i + 2) 20 (i + 3) 100)]

/-- A record handed on delegates to its own voucher; and account 13 may delegate to
account 2, whose delegates lead back to it. -/
theorem delegates_go_round :
    (¬ ∀ world bank h s, Run vouchDelegation.Step (delegationStart world bank) h s →
      Acyclic s.store.store.vault.vouching.Delegates) ∧
    ¬ ∀ world bank h s, Run vouchDelegation.Step (delegationStart world bank) h s → ∀ (ctx : Context) voucher delegate,
      Relation.ReflTransGen s.store.store.vault.vouching.Delegates delegate voucher →
        ∃ e, detectCircularDelegation voucher delegate ctx s.store.store.vault.vouching = .error e := by
  have hstart : Run vouchDelegation.Step (delegationStart sampleWorld sampleBank) [] _ := .nil
  refine ⟨fun hclaim => ?_, fun hclaim => ?_⟩
  · refine hclaim _ _ _ _ (Component.run_play vouchDelegation hstart delegatedToItself) 3 (.single ?_)
    exact Vouching.delegates_of_mem (by decide +kernel)
  · have hr := Component.run_play vouchDelegation hstart delegatedDown
    have hedges : ∀ i ∈ List.range 11, i + 3 ∈ (vouchDelegation.play (delegationStart sampleWorld sampleBank)
        delegatedDown).store.store.vault.vouching.delegatesOf (i + 2) := by decide +kernel
    have hpasses : ∀ e, detectCircularDelegation 13 2 ⟨sampleWorld, []⟩ (vouchDelegation.play
        (delegationStart sampleWorld sampleBank) delegatedDown).store.store.vault.vouching ≠ .error e := by
      have hok : (match detectCircularDelegation 13 2 ⟨sampleWorld, []⟩ (vouchDelegation.play
        (delegationStart sampleWorld sampleBank) delegatedDown).store.store.vault.vouching with
        | .ok _ => true
        | .error _ => false) = true := by decide +kernel
      intro e he
      rw [he] at hok
      cases hok
    generalize vouchDelegation.play (delegationStart sampleWorld sampleBank) delegatedDown = s at hr hedges hpasses
    have hleads (n : Nat) (hn : n ≤ 11) : Relation.ReflTransGen s.store.store.vault.vouching.Delegates 2 (n + 2) := by
      induction n with
      | zero => exact .refl
      | succ n ih =>
        exact (ih (by omega)).tail (Vouching.delegates_of_mem (hedges n (List.mem_range.2 (by omega))))
    obtain ⟨e, he⟩ := hclaim _ _ _ _ hr ⟨sampleWorld, []⟩ 13 2 (hleads 11 le_rfl)
    exact hpasses e he

end QuorumCredit
