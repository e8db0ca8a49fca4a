import Mathlib.Logic.Relation
import Mathlib.Data.List.Nodup
import Mathlib.Data.List.Perm.Subperm
/-!
# Cycles in a graph

A relation without cycles, what a new edge does to it, and a breadth-first search
for the address an edge is to lead from. The search visits at most `limit`
addresses and gives up when there are more; where what it can visit is no more
than that, it finds every way back.
-/

namespace Host

variable {α : Type}

/-- Nothing leads back to itself. -/
def Acyclic (R : α → α → Prop) : Prop := ∀ a, ¬ Relation.TransGen R a a

/-! ## Adding an edge -/

section

variable {R R' : α → α → Prop} {a b d v : α}

/-- A path with a new edge is an old one, or goes to `v` and on from `d`. -/
theorem transGen_insert (hsub : ∀ a b, R' a b → R a b ∨ a = v ∧ b = d) (hapart : ¬ Relation.ReflTransGen R d v)
    (h : Relation.TransGen R' a b) :
    Relation.TransGen R a b ∨ Relation.ReflTransGen R a v ∧ Relation.ReflTransGen R d b := by
  induction h with
  | single h =>
    rcases hsub _ _ h with hold | ⟨rfl, rfl⟩
    · exact .inl (.single hold)
    · exact .inr ⟨.refl, .refl⟩
  | tail _ h ih =>
    rcases hsub _ _ h with hold | ⟨rfl, rfl⟩
    · rcases ih with hpath | ⟨hto, hon⟩
      · exact .inl (hpath.tail hold)
      · exact .inr ⟨hto, hon.tail hold⟩
    · rcases ih with hpath | ⟨-, hback⟩
      · exact .inr ⟨hpath.to_reflTransGen, .refl⟩
      · exact absurd hback hapart

/-- An edge from `v` to `d` closes no cycle where `d` does not lead to `v`. -/
theorem Acyclic.insert (h : Acyclic R) (hsub : ∀ a b, R' a b → R a b ∨ a = v ∧ b = d)
    (hapart : ¬ Relation.ReflTransGen R d v) : Acyclic R' := by
  intro a ha
  rcases transGen_insert hsub hapart ha with hold | ⟨hto, hon⟩
  · exact h a hold
  · exact hapart (hon.trans hto)

theorem Acyclic.mono (h : Acyclic R) (hsub : ∀ a b, R' a b → R a b) : Acyclic R' :=
  fun a ha => h a (Relation.TransGen.mono hsub a a ha)

end

/-! ## Searching for the way back -/

variable {next : α → List α} {target start : α} {limit : Nat}

/-- An edge that does not end at the target. -/
def Past (next : α → List α) (target : α) (a b : α) : Prop := b ∈ next a ∧ b ≠ target

/-- At most `limit` addresses are reached from `start` without passing the target. -/
def Few (next : α → List α) (target : α) (limit : Nat) (start : α) : Prop :=
  ∃ known : List α, known.length ≤ limit ∧ ∀ a, Relation.ReflTransGen (Past next target) start a → a ∈ known

theorem Few.of_nil (h : next start = []) (hlimit : 0 < limit) : Few next target limit start := by
  refine ⟨[start], hlimit, fun a ha => ?_⟩
  rcases Relation.ReflTransGen.cases_head ha with rfl | ⟨b, hb, -⟩
  · exact List.mem_singleton_self _
  · have hmem := hb.1
    rw [h] at hmem
    cases hmem

/-- What the search knows after some rounds: it has looked at `seen`, and their
neighbours are visited; all that is visited is reached from the start. -/
structure Searching (next : α → List α) (target start : α) (seen queue : List α) : Prop where
  begun : start ∈ seen ++ queue
  nodup : (seen ++ queue).Nodup
  reached : ∀ a ∈ seen ++ queue, Relation.ReflTransGen (Past next target) start a
  closed : ∀ a ∈ seen, ∀ b ∈ next a, b ≠ target ∧ b ∈ seen ++ queue

/-- A search that ends without the target has looked at all that the start leads to. -/
theorem Searching.not_reached {seen : List α} (h : Searching next target start seen []) (hne : start ≠ target) :
    ¬ Relation.ReflTransGen (fun a b => b ∈ next a) start target := by
  have hall : ∀ a, Relation.ReflTransGen (fun a b => b ∈ next a) start a → a ∈ seen ∧ a ≠ target := by
    intro a ha
    induction ha with
    | refl => exact ⟨by simpa using h.begun, hne⟩
    | tail _ hb ih =>
      obtain ⟨hpast, hmem⟩ := h.closed _ ih.1 _ hb
      exact ⟨by simpa using hmem, hpast⟩
  exact fun hreach => (hall target hreach).2 rfl

/-- What comes of looking at the neighbours of one address: the target, too many
addresses, or the addresses visited and to look at. -/
inductive Scan (α : Type) where
  | found
  | limit
  | on (visited queue : List α)

variable [DecidableEq α]

/-- The neighbours of an address, one after the other. -/
def scan (target : α) (limit : Nat) (visited queue : List α) : List α → Scan α
  | [] => .on visited queue
  | b :: rest =>
    if b = target then .found
    else if b ∈ visited then scan target limit visited queue rest
    else if limit ≤ visited.length then .limit
    else scan target limit (visited ++ [b]) (queue ++ [b]) rest

/-- Whether the search from `queue` comes to the target, in at most `rounds` rounds. -/
def search (next : α → List α) (target : α) (limit : Nat) : Nat → List α → List α → Bool
  | 0, _, _ => false
  | _ + 1, _, [] => false
  | rounds + 1, visited, a :: queue =>
    match scan target limit visited queue (next a) with
    | .found => true
    | .limit => false
    | .on visited queue => search next target limit rounds visited queue

/-- Where there are few addresses, the scan does not give up, and goes on with the
neighbours that are new. -/
theorem scan_few (hfew : Few next target limit start) {a : α} {seen queue todo : List α}
    (hreached : ∀ b ∈ seen ++ queue, Relation.ReflTransGen (Past next target) start b)
    (hnodup : (seen ++ queue).Nodup) (ha : Relation.ReflTransGen (Past next target) start a)
    (htodo : ∀ b ∈ todo, b ∈ next a) :
    scan target limit (seen ++ queue) queue todo = .found ∨
      ∃ more, scan target limit (seen ++ queue) queue todo = .on (seen ++ (queue ++ more)) (queue ++ more) ∧
        (seen ++ (queue ++ more)).Nodup ∧ (∀ b ∈ more, Relation.ReflTransGen (Past next target) start b) ∧
        ∀ b ∈ todo, b ≠ target ∧ b ∈ seen ++ (queue ++ more) := by
  induction todo generalizing queue with
  | nil =>
    refine .inr ⟨[], ?_⟩
    simpa [scan] using hnodup
  | cons b rest ih =>
    rw [List.forall_mem_cons] at htodo
    rw [scan]
    by_cases htarget : b = target
    · exact .inl (if_pos htarget)
    · rw [if_neg htarget]
      by_cases hvisited : b ∈ seen ++ queue
      · rw [if_pos hvisited]
        refine (ih hreached hnodup htodo.2).imp_right ?_
        rintro ⟨more, hscan, hnodup', hmore, hrest⟩
        refine ⟨more, hscan, hnodup', hmore, List.forall_mem_cons.2 ⟨⟨htarget, ?_⟩, hrest⟩⟩
        rw [← List.append_assoc]
        exact List.mem_append_left _ hvisited
      · have hb : Relation.ReflTransGen (Past next target) start b := ha.tail ⟨htodo.1, htarget⟩
        have hnodup' : (seen ++ (queue ++ [b])).Nodup := by
          rw [← List.append_assoc, List.nodup_append]
          refine ⟨hnodup, List.nodup_singleton b, fun c hc c' hc' hcc => ?_⟩
          rw [List.mem_singleton.1 hc'] at hcc
          exact hvisited (hcc ▸ hc)
        have hreached' : ∀ c ∈ seen ++ (queue ++ [b]), Relation.ReflTransGen (Past next target) start c := by
          rw [← List.append_assoc]
          intro c hc
          rcases List.mem_append.1 hc with hc | hc
          · exact hreached c hc
          · rw [List.mem_singleton.1 hc]
            exact hb
        have hroom : ¬ limit ≤ (seen ++ queue).length := by
          obtain ⟨known, hlength, hknown⟩ := hfew
          have hle := (List.subperm_of_subset hnodup' fun c hc => hknown c (hreached' c hc)).length_le
          simp only [List.length_append, List.length_singleton] at hle ⊢
          omega
        rw [if_neg hvisited, if_neg hroom, List.append_assoc]
        refine (ih hreached' hnodup' htodo.2).imp_right ?_
        rintro ⟨more, hscan, hnodup'', hmore, hrest⟩
        rw [List.append_assoc] at hscan hnodup'' hrest
        refine ⟨[b] ++ more, hscan, hnodup'', ?_, ?_⟩
        · rw [List.singleton_append]
          exact List.forall_mem_cons.2 ⟨hb, hmore⟩
        · exact List.forall_mem_cons.2 ⟨⟨htarget, by simp⟩, hrest⟩

theorem search_few (hfew : Few next target limit start) (hne : start ≠ target)
    (hleads : Relation.ReflTransGen (fun a b => b ∈ next a) start target) {seen queue : List α}
    (h : Searching next target start seen queue) {rounds : Nat} (hrounds : limit ≤ seen.length + rounds) :
    search next target limit rounds (seen ++ queue) queue = true := by
  induction rounds generalizing seen queue with
  | zero =>
    -- every address has been looked at
    have hempty : queue = [] := by
      obtain ⟨known, hlength, hknown⟩ := hfew
      have hle := (List.subperm_of_subset h.nodup fun a ha => hknown a (h.reached a ha)).length_le
      rw [List.length_append] at hle
      exact List.eq_nil_of_length_eq_zero (by omega)
    subst hempty
    exact absurd hleads (h.not_reached hne)
  | succ rounds ih =>
    cases queue with
    | nil => exact absurd hleads (h.not_reached hne)
    | cons a queue =>
      have hlist : seen ++ a :: queue = (seen ++ [a]) ++ queue := by simp
      have ha := h.reached a (by simp)
      rw [search, hlist]
      have hreached : ∀ b ∈ (seen ++ [a]) ++ queue, Relation.ReflTransGen (Past next target) start b :=
        hlist ▸ h.reached
      have hnodup : ((seen ++ [a]) ++ queue).Nodup := hlist ▸ h.nodup
      rcases scan_few hfew hreached hnodup ha (fun b (hb : b ∈ next a) => hb) with hfound |
        ⟨more, hon, hnodup, hmore, hneighbours⟩
      · rw [hfound]
      · rw [hon]
        refine ih ⟨?_, hnodup, ?_, ?_⟩ ?_
        · have hstart := h.begun
          rw [hlist] at hstart
          rw [← List.append_assoc]
          exact List.mem_append_left _ hstart
        · intro b hb
          rw [← List.append_assoc, ← hlist] at hb
          rcases List.mem_append.1 hb with hb | hb
          · exact h.reached b hb
          · exact hmore b hb
        · intro b hb
          rcases List.mem_append.1 hb with hb | hb
          · intro c hc
            obtain ⟨hpast, hmem⟩ := h.closed b hb c hc
            rw [hlist] at hmem
            rw [← List.append_assoc]
            exact ⟨hpast, List.mem_append_left _ hmem⟩
          · rw [List.mem_singleton.1 hb]
            exact hneighbours
        · rw [List.length_append, List.length_singleton]
          omega

/-- Where there are few addresses, the search finds the target if the start leads to it. -/
theorem search_finds (hfew : Few next target limit start) (hne : start ≠ target)
    (hleads : Relation.ReflTransGen (fun a b => b ∈ next a) start target) :
    search next target limit limit [start] [start] = true := by
  have hbegin : Searching next target start [] [start] := by
    refine ⟨List.mem_singleton_self _, List.nodup_singleton _, ?_, ?_⟩
    · intro a ha
      rw [List.nil_append, List.mem_singleton] at ha
      rw [ha]
    · intro a ha
      cases ha
  exact search_few hfew hne hleads hbegin (by simp)

end Host
