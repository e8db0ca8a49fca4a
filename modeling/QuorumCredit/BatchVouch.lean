import QuorumCredit.AnyToken
/-!
# Batches of vouches

`batch_vouch` compared with calling `vouch` for each entry: what an entry that
fails leaves behind, and what the ones that succeed do not write that `vouch`
does. That vouching for them one by one comes to the same only where the guards
write nothing is a cycle argument: the list of borrowers only grows, and so does
the count of calls in a window.
-/

open Host Function

namespace QuorumCredit.AnyToken

/-! ## The guards of a vouch -/

section

variable {ctx : Context}

/-- A call that passes the pause guard leaves the contract open. -/
theorem requireNotThawing_opens (a : Access) :
    Yields requireNotThawing ctx a fun _ b =>
      ctx.config.emergencyPauseEnabled = false ∧ b.pauseMode = .none ∧
        b.rateLimit = a.rateLimit ∧ b.borrowerList = a.borrowerList := by
  unfold requireNotThawing requireNotPaused getPauseMode
  simp only [yields_steps, id_eq]
  intro hemergency
  split
  case h_1 thaw hmode hthaw =>
    simp only [yields_bind, yields_u64]
    intro hfits
    split
    case isTrue =>
      simp only [yields_steps]
      exact fun _ _ => ⟨hemergency, trivial, trivial, trivial⟩
    case isFalse => simp
  case h_2 hmode =>
    simp only [yields_pure]
    intro hpaused hthawing
    refine ⟨hemergency, ?_, trivial, trivial⟩
    cases hm : a.pauseMode with
    | none => rfl
    | paused => exact absurd hm hpaused
    | thawing => exact absurd hm hthawing

theorem requireNotThawing_open {a : Access} (hemergency : ctx.config.emergencyPauseEnabled = false)
    (hmode : a.pauseMode = .none) : requireNotThawing ctx a = .ok ((), a) := by
  unfold requireNotThawing requireNotPaused getPauseMode
  simp [run_bind, run_ask, run_require, run_look, hemergency, hmode, run_pure]

/-- What a call does to the caller's entry of the rate limiter: one more in the window, or the first of the next. -/
def Counted (now window : Nat) (p q : Nat × Nat) : Prop :=
  p.1 + window ≤ u64Max ∧
    (now < p.1 + window ∧ q.1 = p.1 ∧ p.2 < q.2 ∨ p.1 + window ≤ now ∧ q.1 = now ∧ (window = 0 → q.2 = 1))

theorem Counted.trans {now window : Nat} {p q r : Nat × Nat} (hpq : Counted now window p q)
    (hqr : Counted now window q r) : Counted now window p r := by
  unfold Counted at *
  omega

/-- An entry that comes back is one that every call starts anew. -/
theorem Counted.cycle {now window : Nat} {p : Nat × Nat} (h : Counted now window p p) :
    p = (now, 1) ∧ window = 0 := by
  obtain ⟨-, ⟨-, -, hlt⟩ | ⟨hpast, hnow, hone⟩⟩ := h
  · exact absurd hlt (lt_irrefl _)
  · have hwindow : window = 0 := by omega
    exact ⟨Prod.ext hnow (hone hwindow), hwindow⟩

theorem checkRateLimit_counts (voucher : Address) (a : Access) :
    Yields (checkRateLimit voucher) ctx a fun _ b =>
      b.borrowerList = a.borrowerList ∧
        (ctx.config.rateLimitConfig.enabled = true →
          Counted ctx.now ctx.config.rateLimitConfig.windowSecs (a.rateLimit voucher) (b.rateLimit voucher)) := by
  unfold checkRateLimit
  simp only [yields_steps]
  split
  case isTrue hoff =>
    rw [yields_pure]
    exact ⟨rfl, fun hon => Bool.noConfusion (hoff.symm.trans hon)⟩
  case isFalse =>
    simp only [yields_steps, yields_u64]
    intro hfits
    split
    case isTrue hopen =>
      simp only [yields_steps, update_self]
      exact fun _ => ⟨trivial, fun _ => ⟨hfits, .inl ⟨hopen, rfl, Nat.lt_succ_self _⟩⟩⟩
    case isFalse hpast =>
      simp only [yields_alter, update_self]
      exact ⟨trivial, fun _ => ⟨hfits, .inr ⟨not_lt.1 hpast, rfl, fun _ => rfl⟩⟩⟩

theorem checkRateLimit_cycle {voucher : Address} {a : Access}
    (h : ctx.config.rateLimitConfig.enabled = true →
      Counted ctx.now ctx.config.rateLimitConfig.windowSecs (a.rateLimit voucher) (a.rateLimit voucher)) :
    checkRateLimit voucher ctx a = .ok ((), a) := by
  unfold checkRateLimit
  rw [run_bind_ok (run_ask ctx a)]
  dsimp only
  split
  case isTrue => rfl
  case isFalse hon =>
    have hcounted := h (by simpa using hon)
    obtain ⟨hentry, hwindow⟩ := hcounted.cycle
    have hnow : ctx.now ≤ u64Max := by
      have hfits := hcounted.1
      rw [hentry] at hfits
      omega
    have hset : update a.rateLimit voucher (ctx.now, 1) = a.rateLimit := by
      rw [← hentry, update_eq_self]
    simp [run_bind, run_look, hentry, hwindow, u64, run_require, hnow, run_alter, hset]

end

/-! ## Batches of vouches -/

section

variable {τ : Type} (T : TokenContract τ) {ctx : Context} {s t : VouchStore τ} (cfg : VouchConfig)
  (voucher token : Address) (chainId : Option Nat) (entry : Address × Int)

/-- A vouch at this point differs from the entry in nothing: it lists no borrower, counts no call and
names no chain 0. -/
structure Alike (ctx : Context) (s : VouchStore τ) : Prop where
  listed : entry.1 ∈ s.access.borrowerList
  uncounted : checkRateLimit voucher ctx s.access = .ok ((), s.access)
  native : chainId ≠ some 0

/-- An entry that will fail finds nothing to mark and moves no tokens; one that will succeed is like a vouch. -/
structure Meets (ctx : Context) (s : VouchStore τ) : Prop where
  unmarked : Eligible ctx.toWorld voucher entry →
    ¬ (Admitted T cfg voucher token chainId entry ctx (s.marked ctx.now entry.1) ∧
      ∃ y, T.transfer s.tokens token voucher ctx.contract entry.2 = some y ∧
        Arrived T ctx.toWorld token entry.2 s.tokens y) →
    s.marked ctx.now entry.1 = s
  unmoved : Eligible ctx.toWorld voucher entry →
    Admitted T cfg voucher token chainId entry ctx (s.marked ctx.now entry.1) →
    ∀ y, T.transfer s.tokens token voucher ctx.contract entry.2 = some y →
      ¬ Arrived T ctx.toWorld token entry.2 s.tokens y → y = s.tokens
  alike : Eligible ctx.toWorld voucher entry →
    Admitted T cfg voucher token chainId entry ctx (s.marked ctx.now entry.1) →
    ∀ y, T.transfer s.tokens token voucher ctx.contract entry.2 = some y →
      Arrived T ctx.toWorld token entry.2 s.tokens y → Alike voucher chainId entry ctx s

variable {T cfg voucher token chainId entry}

theorem Outcome.meets_failed (h : Outcome T cfg voucher token chainId entry ctx s false t) :
    Meets T cfg voucher token chainId entry ctx s ↔ t = s := by
  cases h with
  | ineligible hno =>
    exact ⟨fun _ => rfl, fun _ => ⟨fun h => absurd h hno, fun h => absurd h hno, fun h => absurd h hno⟩⟩
  | refused heligible hnot =>
    constructor
    · exact fun h => h.unmarked heligible fun hvouched => hnot hvouched.1
    · exact fun h => ⟨fun _ _ => h, fun _ hadmitted => absurd hadmitted hnot, fun _ hadmitted => absurd hadmitted hnot⟩
  | @short y heligible hadmitted hmoved hshort =>
    have hone : ∀ z, T.transfer s.tokens token voucher ctx.contract entry.2 = some z → z = y :=
      fun z hz => Option.some.inj (hz.symm.trans hmoved)
    constructor
    · intro h
      have hmarked := h.unmarked heligible fun ⟨_, z, hz, harrived⟩ => hshort (hone z hz ▸ harrived)
      rw [hmarked, h.unmoved heligible hadmitted y hmoved hshort]
    · intro h
      have hmarked : s.marked ctx.now entry.1 = s :=
        congrArg (fun k => { s with book := k }) (congrArg VouchStore.book h)
      refine ⟨fun _ _ => hmarked, fun _ _ z hz _ => ?_, fun _ _ z hz harrived => ?_⟩
      · exact (hone z hz).trans (congrArg VouchStore.tokens h)
      · exact absurd (hone z hz ▸ harrived) hshort

theorem Outcome.meets_vouched (h : Outcome T cfg voucher token chainId entry ctx s true t) :
    Meets T cfg voucher token chainId entry ctx s ↔ Alike voucher chainId entry ctx s := by
  cases h with
  | @vouched y heligible hadmitted hmoved harrived =>
    constructor
    · exact fun h => h.alike heligible hadmitted y hmoved harrived
    · intro h
      refine ⟨fun _ hnot => absurd ⟨hadmitted, y, hmoved, harrived⟩ hnot, fun _ _ z hz hshort => ?_, fun _ _ _ _ _ => h⟩
      obtain rfl := Option.some.inj (hz.symm.trans hmoved)
      exact absurd harrived hshort

theorem Outcome.access_eq {success : Bool} (h : Outcome T cfg voucher token chainId entry ctx s success t) :
    t.access = s.access := by
  cases h <;> rfl

/-- The vouches recorded as coming from a chain 0. -/
def markedNative (b : Address) (s : VouchStore τ) : Nat :=
  (s.vouching.vouchesOf b).countP (·.chainId = some 0)

theorem markedNative_added {e : Address} {record : VouchRecord}
    (h : t.vouching.vouchesOf = update s.vouching.vouchesOf e (s.vouching.vouchesOf e ++ [record])) (b : Address) :
    markedNative b t = markedNative b s + if b = e ∧ record.chainId = some 0 then 1 else 0 := by
  unfold markedNative
  rw [h, update_apply]
  by_cases hb : b = e
  · subst hb
    simp [List.countP_append, List.countP_singleton]
  · simp [hb]

theorem Outcome.markedNative_eq {success : Bool} (h : Outcome T cfg voucher token chainId entry ctx s success t)
    (b : Address) :
    markedNative b t = markedNative b s + if success = true ∧ b = entry.1 ∧ chainId = some 0 then 1 else 0 := by
  cases h with
  | ineligible | refused | short => simp [markedNative, VouchStore.marked]
  | vouched =>
    rw [markedNative_added (Vouching.committed_vouchesOf ..)]
    simp only [true_and]
    rfl

/-- The failed entries left nothing behind, and vouching for the others, one after another, comes to the same. -/
structure Independent (T : TokenContract τ) (voucher token : Address) (chainId : Option Nat) (ctx : Context)
    (s : VouchStore τ) (xs : List (Took (Address × Int) BatchVouchResult (VouchStore τ))) (t : VouchStore τ) :
      Prop where
  untouched : ∀ x ∈ xs, x.result.success = false → x.after = x.before
  replayed : ∃ us, each (fun entry => vouch T voucher entry.1 entry.2 token chainId)
    ((xs.filter (·.result.success)).map (·.item)) ctx s = .ok (us, t)

variable {xs : List (Took (Address × Int) BatchVouchResult (VouchStore τ))}

theorem replay (hauth : voucher ∈ ctx.signers ∧ voucher ≠ ctx.contract)
    (hopen : requireNotThawing ctx s.access = .ok ((), s.access))
    (h : Sequence (batchEntry T ctx.vouchConfig voucher token chainId) ctx s xs t)
    (hmeets : ∀ x ∈ xs, Meets T ctx.vouchConfig voucher token chainId x.item ctx x.before) :
    ∃ us, each (fun entry => vouch T voucher entry.1 entry.2 token chainId)
      ((xs.filter (·.result.success)).map (·.item)) ctx s = .ok (us, t) := by
  induction h with
  | nil => exact ⟨[], rfl⟩
  | @cons entry s r u xs t hran _ ih =>
    obtain ⟨hhead, htail⟩ := List.forall_mem_cons.1 hmeets
    obtain ⟨-, -, hout⟩ := batchEntry_outcome T _ voucher token chainId entry s _ _ hran
    cases hr : r.success with
    | false =>
      rw [hr] at hout
      obtain rfl := hout.meets_failed.1 hhead
      rw [List.filter_cons_of_neg (by simp [hr])]
      exact ih hopen htail
    | true =>
      have halike := (hr ▸ hout).meets_vouched.1 hhead
      obtain ⟨us, hus⟩ := ih (hout.access_eq ▸ hopen) htail
      have hbridge : ∀ cid, chainId = some cid → ctx.activeBridge cid = true := by
        rw [hr] at hout
        cases hout with
        | vouched _ hadmitted _ _ => exact bridge_of_admitted T _ voucher token chainId entry hadmitted
      have hvouch := vouch_of_success T voucher token chainId entry hauth hopen halike.uncounted halike.listed
        halike.native hbridge hran hr
      rw [List.filter_cons_of_pos (by simp [hr]), List.map_cons]
      refine ⟨() :: us, ?_⟩
      rw [each, run_bind_ok hvouch, run_bind_ok hus]
      rfl

end

section

variable {τ : Type} {T : TokenContract τ} {ctx : Context} {s t : VouchStore τ} {voucher token : Address}
  {chainId : Option Nat} {entry : Address × Int} {xs : List (Took (Address × Int) BatchVouchResult (VouchStore τ))}

theorem mem_registered (b : Address) (a : Access) : b ∈ (registered b a).borrowerList := by
  unfold registered
  split
  case isTrue h => exact h
  case isFalse => exact List.mem_concat_self

theorem subset_registered (b : Address) (a : Access) : a.borrowerList ⊆ (registered b a).borrowerList := by
  unfold registered
  split
  case isTrue => exact List.Subset.refl _
  case isFalse => exact List.subset_append_left _ _

theorem registered_rateLimit (b : Address) (a : Access) : (registered b a).rateLimit = a.rateLimit := by
  unfold registered
  split <;> rfl

/-- What a vouch does to the guards' storage: the list of borrowers grows, and the call is counted. -/
def Guarded (voucher : Address) (ctx : Context) (a b : Access) : Prop :=
  a.borrowerList ⊆ b.borrowerList ∧
    (ctx.config.rateLimitConfig.enabled = true →
      Counted ctx.now ctx.config.rateLimitConfig.windowSecs (a.rateLimit voucher) (b.rateLimit voucher))

theorem Guarded.trans {a b c : Access} (hab : Guarded voucher ctx a b) (hbc : Guarded voucher ctx b c) :
    Guarded voucher ctx a c :=
  ⟨List.Subset.trans hab.1 hbc.1, fun hon => (hab.2 hon).trans (hbc.2 hon)⟩

theorem vouch_guarded (h : vouch T voucher entry.1 entry.2 token chainId ctx s = .ok ((), t)) :
    Guarded voucher ctx s.access t.access ∧ entry.1 ∈ t.access.borrowerList := by
  obtain ⟨a, a', -, hopen, hrate, ht, -, -⟩ := vouch_traces T voucher token chainId entry s _ _ h
  obtain ⟨-, -, hlimit, hlist⟩ := requireNotThawing_opens s.access _ _ hopen
  obtain ⟨hlist', hcounted⟩ := checkRateLimit_counts voucher a _ _ hrate
  rw [ht]
  refine ⟨⟨?_, fun hon => ?_⟩, mem_registered ..⟩
  · rw [← hlist, ← hlist']
    exact subset_registered _ _
  · rw [registered_rateLimit, ← hlimit]
    exact hcounted hon

theorem vouch_markedNative (h : vouch T voucher entry.1 entry.2 token chainId ctx s = .ok ((), t)) (b : Address) :
    chainId = some 0 → markedNative b t = markedNative b s := by
  rintro rfl
  obtain ⟨-, -, record, -, -, -, hchain, hrecords⟩ := vouch_traces T voucher token _ entry s _ _ h
  rw [markedNative_added hrecords, hchain]
  simp [chainOf]

/-- Vouches that leave the guards' storage as it was found nothing to write there. -/
theorem alike_of_replayed {entries : List (Address × Int)} {us : List Unit}
    (h : each (fun entry => vouch T voucher entry.1 entry.2 token chainId) entries ctx s = .ok (us, t))
    (hsame : t.access = s.access) (hentry : entry ∈ entries) :
    entry.1 ∈ s.access.borrowerList ∧ checkRateLimit voucher ctx s.access = .ok ((), s.access) := by
  obtain ⟨ys, hys, rfl, -⟩ := each_sequence h
  have hstep : ∀ y ∈ ys, Guarded voucher ctx y.before.access y.after.access ∧ y.item.1 ∈ y.after.access.borrowerList :=
    fun y hy => vouch_guarded (hys.ran y hy)
  obtain ⟨y, hy, rfl⟩ := List.mem_map.1 hentry
  constructor
  · have hgrows := hys.ordered (R := fun s t => s.access.borrowerList ⊆ t.access.borrowerList)
      (fun _ => List.Subset.refl _) (fun _ _ _ => List.Subset.trans) fun y hy => (hstep y hy).1.1
    rw [← hsame]
    exact (hgrows.2 y hy).2 (hstep y hy).2
  · have hcycle := hys.advance (R := fun s t => Guarded voucher ctx s.access t.access)
      (fun _ _ _ => Guarded.trans) (fun y hy => (hstep y hy).1) (List.ne_nil_of_mem hy)
    rw [hsame] at hcycle
    exact checkRateLimit_cycle hcycle.2

theorem native_of_replayed {b : Address} {entries : List (Address × Int)} {us : List Unit}
    (h : each (fun entry => vouch T voucher entry.1 entry.2 token chainId) entries ctx s = .ok (us, t))
    (hmore : chainId = some 0 → markedNative b s < markedNative b t) : chainId ≠ some 0 := by
  intro hchain
  obtain ⟨ys, hys, -, -⟩ := each_sequence h
  have hsame := hys.ordered (R := fun s t => markedNative b s = markedNative b t) (fun _ => rfl) (fun _ _ _ => Eq.trans)
    fun y hy => (vouch_markedNative (hys.ran y hy) b hchain).symm
  exact absurd hsame.1 (hmore hchain).ne

theorem meets_of_independent (h : Sequence (batchEntry T ctx.vouchConfig voucher token chainId) ctx s xs t)
    (hind : Independent T voucher token chainId ctx s xs t) :
    ∀ x ∈ xs, Meets T ctx.vouchConfig voucher token chainId x.item ctx x.before := by
  intro x hx
  have houtcomes : ∀ x ∈ xs,
      Outcome T ctx.vouchConfig voucher token chainId x.item ctx x.before x.result.success x.after := fun x hx =>
    (batchEntry_outcome T _ voucher token chainId x.item x.before _ _ (h.ran x hx)).2.2
  have hout := houtcomes x hx
  cases hr : x.result.success with
  | false => exact (hr ▸ hout).meets_failed.2 (hind.untouched x hx hr)
  | true =>
    obtain ⟨us, hus⟩ := hind.replayed
    have haccess := h.ordered (R := fun s t => s.access = t.access) (fun _ => rfl) (fun _ _ _ => Eq.trans)
      fun y hy => (houtcomes y hy).access_eq.symm
    have hgrows := h.ordered (R := fun s t => markedNative x.item.1 s ≤ markedNative x.item.1 t) (fun _ => le_refl _)
      (fun _ _ _ => le_trans) fun y hy => by
        rw [(houtcomes y hy).markedNative_eq]
        exact Nat.le_add_right _ _
    have hmem : x.item ∈ (xs.filter (·.result.success)).map (·.item) :=
      List.mem_map_of_mem (List.mem_filter.2 ⟨hx, hr⟩)
    obtain ⟨hlisted, huncounted⟩ := alike_of_replayed hus haccess.1.symm hmem
    have hbefore := (haccess.2 x hx).1
    refine (hr ▸ hout).meets_vouched.2 ⟨hbefore ▸ hlisted, hbefore ▸ huncounted, ?_⟩
    refine native_of_replayed (b := x.item.1) hus fun hchain => ?_
    have hone := hout.markedNative_eq x.item.1
    rw [if_pos ⟨hr, rfl, hchain⟩] at hone
    have hto := (hgrows.2 x hx).1
    have hon := (hgrows.2 x hx).2
    omega

theorem batchVouch_sequence (borrowers : List Address) (stakes : List Int) (s : VouchStore τ) :
    Yields (batchVouch T voucher borrowers stakes token chainId) ctx s fun results t =>
      (voucher ∈ ctx.signers ∧ voucher ≠ ctx.contract) ∧
        ∃ s₁ xs, (zoom requireNotThawing : Contract (VouchStore τ) Unit) ctx s = .ok ((), s₁) ∧
          Sequence (batchEntry T ctx.vouchConfig voucher token chainId) ctx s₁ xs t ∧
            xs.map (·.item) = borrowers.zip stakes ∧ xs.map (·.result) = results := by
  unfold batchVouch
  simp only [yields_bind, yields_ask, yields_requireAuth, yields_require, yields_requireAllowedToken, lift_eq_zoom,
    lift_self]
  intro hauth _ s₁ hopen _ _ results t hrun
  obtain ⟨xs, hxs, hitems, hresults⟩ := each_sequence hrun
  exact ⟨hauth, s₁, xs, hopen, hxs, hitems, hresults⟩

/-- A batch is a sequence of independent vouches exactly when every entry meets the
condition in the storage it finds: what fails had nothing to mark and moved no tokens,
what succeeds is for a listed borrower, uncounted and not for a chain 0. -/
theorem batch_vouch_independent {borrowers : List Address} {stakes : List Int} {results : List BatchVouchResult}
    (h : batchVouch T voucher borrowers stakes token chainId ctx s = .ok (results, t)) :
    ∃ s₁ xs, (zoom requireNotThawing : Contract (VouchStore τ) Unit) ctx s = .ok ((), s₁) ∧
      Sequence (batchEntry T ctx.vouchConfig voucher token chainId) ctx s₁ xs t ∧
        xs.map (·.item) = borrowers.zip stakes ∧ xs.map (·.result) = results ∧
          (Independent T voucher token chainId ctx s₁ xs t ↔
            ∀ x ∈ xs, Meets T ctx.vouchConfig voucher token chainId x.item ctx x.before) := by
  obtain ⟨hauth, s₁, xs, hopen, hxs, hitems, hresults⟩ := batchVouch_sequence borrowers stakes s _ _ h
  refine ⟨s₁, xs, hopen, hxs, hitems, hresults, meets_of_independent hxs, fun hmeets => ⟨?_, ?_⟩⟩
  · intro x hx hfailed
    have hout := (batchEntry_outcome T _ voucher token chainId x.item x.before _ _ (hxs.ran x hx)).2.2
    exact (hfailed ▸ hout).meets_failed.1 (hmeets x hx)
  · obtain ⟨a, hopened, rfl⟩ := zoom_ok hopen
    obtain ⟨hemergency, hmode, -⟩ := requireNotThawing_opens _ _ _ hopened
    exact replay hauth (requireNotThawing_open hemergency hmode) hxs hmeets

end

/-! ## An entry alike, and two that are not -/

/-- A token contract that keeps one unit of every transfer for itself. -/
def tollToken : TokenContract Ledger where
  balance := Bank.balance
  transfer bank token src dst amount :=
    if 1 ≤ amount ∧ amount ≤ bank.balance token src
    then some ((bank.move token src dst (amount - 1)).move token src token 1)
    else none

/-- Nothing is lent or vouched for; the borrowers on the list are `borrowers`. -/
def sampleStore (borrowers : List Address) : VouchStore Ledger :=
  { access := { Access.open with borrowerList := borrowers }, book := .empty, vouching := .empty, tokens := sampleBank }

theorem sampleStore_open {borrowers : List Address} {s : VouchStore Ledger}
    (h : (zoom requireNotThawing : Contract (VouchStore Ledger) Unit) ⟨sampleWorld, [2]⟩ (sampleStore borrowers) =
      .ok ((), s)) : s = sampleStore borrowers := by
  obtain ⟨a, hopened, rfl⟩ := zoom_ok h
  have hopen : requireNotThawing ⟨sampleWorld, [2]⟩ (sampleStore borrowers).access =
      .ok ((), (sampleStore borrowers).access) := requireNotThawing_open rfl rfl
  cases hopened.symm.trans hopen
  rfl

theorem batch_vouch_independent_listed :
    ∃ t s₁ xs, batchVouch standardToken 2 [10] [1000] 100 none ⟨sampleWorld, [2]⟩ (sampleStore [10]) =
        .ok ([⟨10, 1000, true, none⟩], t) ∧
      Sequence (batchEntry standardToken sampleWorld.vouchConfig 2 100 none) ⟨sampleWorld, [2]⟩ s₁ xs t ∧
        Independent standardToken 2 100 none ⟨sampleWorld, [2]⟩ s₁ xs t := by
  have hresult : result (batchVouch standardToken 2 [10] [1000] 100 none) ⟨sampleWorld, [2]⟩ (sampleStore [10]) =
      some [⟨10, 1000, true, none⟩] := by decide +kernel
  have hrun := run_of_result hresult
  obtain ⟨s₁, xs, hopen, hxs, hitems, hresults, hiff⟩ := batch_vouch_independent hrun
  refine ⟨_, s₁, xs, hrun, hxs, hiff.2 ?_⟩
  obtain rfl := hxs.single hitems hresults
  obtain rfl := sampleStore_open hopen
  refine List.forall_mem_singleton.2 ?_
  have hout := (batchEntry_outcome _ _ _ _ _ _ _ _ _ (hxs.ran _ (List.mem_singleton_self _))).2.2
  exact (Outcome.meets_vouched hout).2 ⟨by decide, rfl, by decide⟩

/-- The toll of an entry that fails is paid, and a borrower who is vouched for in a batch is not listed. -/
theorem batch_vouch_dependent :
    (¬ ∀ ctx s voucher borrowers stakes token chainId results t,
      batchVouch tollToken voucher borrowers stakes token chainId ctx s = .ok (results, t) →
        ∃ s₁ xs, (zoom requireNotThawing : Contract (VouchStore Ledger) Unit) ctx s = .ok ((), s₁) ∧
          Sequence (batchEntry tollToken ctx.vouchConfig voucher token chainId) ctx s₁ xs t ∧
            xs.map (·.item) = borrowers.zip stakes ∧ xs.map (·.result) = results ∧
              Independent tollToken voucher token chainId ctx s₁ xs t) ∧
    ¬ ∀ ctx s voucher borrowers stakes token chainId results t,
      batchVouch standardToken voucher borrowers stakes token chainId ctx s = .ok (results, t) →
        ∃ s₁ xs, (zoom requireNotThawing : Contract (VouchStore Ledger) Unit) ctx s = .ok ((), s₁) ∧
          Sequence (batchEntry standardToken ctx.vouchConfig voucher token chainId) ctx s₁ xs t ∧
            xs.map (·.item) = borrowers.zip stakes ∧ xs.map (·.result) = results ∧
              Independent standardToken voucher token chainId ctx s₁ xs t := by
  refine ⟨fun hclaim => ?_, fun hclaim => ?_⟩
  · have hresult : result (batchVouch tollToken 2 [10] [1000] 100 none) ⟨sampleWorld, [2]⟩ (sampleStore [10]) =
        some [⟨10, 1000, false, some .insufficientFunds⟩] := by decide +kernel
    obtain ⟨s₁, xs, hopen, hxs, hitems, hresults, hind⟩ := hclaim _ _ _ _ _ _ _ _ _ (run_of_result hresult)
    obtain rfl := hxs.single hitems hresults
    obtain rfl := sampleStore_open hopen
    have hsame := congrArg (·.tokens.balance 100 2) (hind.untouched _ (List.mem_singleton_self _) rfl)
    exact absurd hsame (by decide +kernel)
  · have hresult : result (batchVouch standardToken 2 [10] [1000] 100 none) ⟨sampleWorld, [2]⟩ (sampleStore []) =
        some [⟨10, 1000, true, none⟩] := by decide +kernel
    obtain ⟨s₁, xs, hopen, hxs, hitems, hresults, hind⟩ := hclaim _ _ _ _ _ _ _ _ _ (run_of_result hresult)
    obtain rfl := hxs.single hitems hresults
    obtain rfl := sampleStore_open hopen
    obtain ⟨us, hus⟩ := hind.replayed
    obtain ⟨_, u, hvouch, hrest⟩ := bind_ok hus
    cases hrest
    exact absurd (vouch_guarded hvouch).2 (by decide +kernel)

end QuorumCredit.AnyToken
