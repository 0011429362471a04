import Actjs.Transition
import Mathlib.Data.Nat.Basic

/-!
# A store of a selected value

`selectStore` wraps a store so that its listeners fire only when the selected value has
changed. It remembers one value, `last`, for all of its listeners and for `getSnapshot`.
`SelectedStore` is the result of one `selectStore` and the store under it, which goes over
its listeners one after the other: whatever a listener does comes between two of them.

A listener should fire when the value differs from the one at which that listener fired
before, or subscribed. The remembered value is this one as long as it changes only while
nobody else is subscribed; when it changes for one listener, every other one of them misses
the change. `fires_when_changed` is about both.

A selected value may be `undefined`, which is what it is while there is no state.
-/

/-- A listener of the wrapped store, and the selected value at which it fired last, or
subscribed. -/
structure SelectedListener (V : Type) where
  id : ℕ
  base : Option V

/-- **What `selectStore` returns**, over the store under it. -/
structure SelectedStore (S V : Type) where
  snapshot : Option S
  /-- The listeners, in the order of their insertion. -/
  listeners : List (SelectedListener V)
  nextId : ℕ
  /-- Where each loop over the listeners has got to, the innermost first. -/
  loops : List ℕ
  last : Option V
  hasLast : Bool

/-- **What happens next.** -/
inductive SelectedAct (S : Type) where
  | subscribe
  | unsubscribe (id : ℕ)
  | getSnapshot
  /-- A new state: the store begins to go over its listeners. -/
  | publish (state : S)
  /-- The subscription fails: the store goes over its listeners too. -/
  | fail
  /-- The innermost loop goes on to its next listener, or ends. -/
  | visit

namespace SelectedStore

variable {S V : Type} [DecidableEq V] (selector : S → Option V)

def init (snapshot : Option S) : SelectedStore S V := ⟨snapshot, [], 0, [], none, false⟩

/-- `compute`. -/
def compute (s : SelectedStore S V) : Option V := s.snapshot.bind selector

/-- `getSnapshot`: what it returns, and what it remembers. -/
def getSnapshot (s : SelectedStore S V) : Option V × SelectedStore S V :=
  if s.hasLast = true ∧ s.compute selector = s.last then (s.last, s)
  else (s.compute selector, { s with last := s.compute selector, hasLast := true })

def subscribe (s : SelectedStore S V) : SelectedStore S V :=
  { s with
    last := s.compute selector
    hasLast := true
    listeners := s.listeners ++ [⟨s.nextId, s.compute selector⟩]
    nextId := s.nextId + 1 }

def unsubscribe (s : SelectedStore S V) (id : ℕ) : SelectedStore S V :=
  { s with listeners := s.listeners.filter (fun l => l.id ≠ id) }

/-- The listener that the innermost loop comes to. -/
def visited? (s : SelectedStore S V) : Option (SelectedListener V) :=
  match s.loops with
  | [] => none
  | start :: _ => s.listeners.find? (fun l => decide (start ≤ l.id))

/-- What the store under it calls finds a change, and calls the listener. -/
def fires (s : SelectedStore S V) : Bool := decide (s.compute selector ≠ s.last)

/-- The store under it calls what `subscribe` gave it for the listener. -/
def tell (s : SelectedStore S V) (id : ℕ) : SelectedStore S V :=
  if s.fires selector = true then
    { s with
      last := s.compute selector
      listeners := s.listeners.map (fun l =>
        if l.id = id then { l with base := s.compute selector } else l) }
  else s

/-- The innermost loop goes on. -/
def visit (s : SelectedStore S V) : Option (SelectedStore S V) :=
  match s.loops with
  | [] => none
  | _ :: rest =>
    match s.visited? with
    | none => some { s with loops := rest }
    | some l => some { s.tell selector l.id with loops := (l.id + 1) :: rest }

def step (s : SelectedStore S V) : SelectedAct S → Option (SelectedStore S V)
  | .subscribe => some (s.subscribe selector)
  | .unsubscribe id => some (s.unsubscribe id)
  | .getSnapshot => some (s.getSnapshot selector).2
  | .publish state => some { s with snapshot := some state, loops := 0 :: s.loops }
  | .fail => some { s with loops := 0 :: s.loops }
  | .visit => s.visit selector

/-- **The listener that is visited fires if, and only if, the selected value differs from
the one at which it fired last**, or subscribed. -/
def FiresRightly (s : SelectedStore S V) : SelectedAct S → Prop
  | .visit => ∀ l, s.visited? = some l →
      (s.fires selector = true ↔ s.compute selector ≠ l.base)
  | _ => True

/-- **Another value is remembered only while no other listener is subscribed.** -/
def remembersAlone (s : SelectedStore S V) : SelectedAct S → Bool
  | .subscribe | .getSnapshot => !s.fires selector || s.listeners.isEmpty
  | .visit =>
    match s.visited? with
    | none => true
    | some l => !s.fires selector || s.listeners.all (fun m => m.id == l.id)
  | _ => true

/-! ## One step -/

variable {selector} {s s' : SelectedStore S V} {x : SelectedAct S} {l : SelectedListener V}

theorem fires_eq_false_iff : s.fires selector = false ↔ s.compute selector = s.last := by
  rw [fires, decide_eq_false_iff_not, not_not]

/-- What a visit does. -/
theorem visit_eq_some (h : s.visit selector = some s') :
    (∃ rest, s.visited? = none ∧ s' = { s with loops := rest })
      ∨ ∃ l rest, s.visited? = some l
        ∧ s' = { s.tell selector l.id with loops := (l.id + 1) :: rest } := by
  unfold visit at h
  split at h
  · exact absurd h (by simp)
  · next rest _ =>
    split at h
    · next hv => exact .inl ⟨rest, hv, (Option.some.inj h).symm⟩
    · next l hv => exact .inr ⟨l, rest, hv, (Option.some.inj h).symm⟩

omit [DecidableEq V] in
theorem visited?_mem (h : s.visited? = some l) : l ∈ s.listeners := by
  unfold visited? at h
  split at h
  · exact absurd h (by simp)
  · exact List.mem_of_find?_eq_some h

/-- The ids of the listeners stay as they are. -/
theorem map_id_tell (id : ℕ) :
    (s.tell selector id).listeners.map SelectedListener.id
      = s.listeners.map SelectedListener.id := by
  unfold tell
  split
  · rw [List.map_map]
    refine List.map_congr_left (fun l _ => ?_)
    show (if l.id = id then _ else l).id = l.id
    rw [apply_ite SelectedListener.id, ite_self]
  · rfl

/-- **The listeners are in the order of their ids**, and the next one is greater. -/
structure Ordered (s : SelectedStore S V) : Prop where
  sorted : (s.listeners.map SelectedListener.id).Pairwise (· < ·)
  fresh : ∀ id ∈ s.listeners.map SelectedListener.id, id < s.nextId

theorem Ordered.step (h : s.Ordered) (hs : s.step selector x = some s') : s'.Ordered := by
  cases x with
  | subscribe =>
    obtain rfl := Option.some.inj hs
    have hmap : (s.subscribe selector).listeners.map SelectedListener.id
        = s.listeners.map SelectedListener.id ++ [s.nextId] := List.map_append
    refine ⟨?_, fun id hid => ?_⟩
    · rw [hmap, List.pairwise_append]
      exact ⟨h.sorted, List.pairwise_singleton _ _,
        fun id hid next hnext => List.mem_singleton.mp hnext ▸ h.fresh id hid⟩
    · show id < s.nextId + 1
      rw [hmap, List.mem_append, List.mem_singleton] at hid
      exact Nat.lt_succ_of_le (hid.elim (fun hid => Nat.le_of_lt (h.fresh id hid)) Nat.le_of_eq)
  | unsubscribe id =>
    obtain rfl := Option.some.inj hs
    have hsub : ((s.unsubscribe id).listeners.map SelectedListener.id).Sublist
        (s.listeners.map SelectedListener.id) := List.filter_sublist.map _
    exact ⟨h.sorted.sublist hsub, fun id hid => h.fresh id (hsub.subset hid)⟩
  | getSnapshot =>
    obtain rfl := Option.some.inj hs
    unfold SelectedStore.getSnapshot
    split
    · exact h
    · exact ⟨h.sorted, h.fresh⟩
  | visit =>
    obtain ⟨rest, -, rfl⟩ | ⟨l, rest, -, rfl⟩ := visit_eq_some hs
    · exact ⟨h.sorted, h.fresh⟩
    · have hnext : (s.tell selector l.id).nextId = s.nextId := by
        unfold tell
        split
        · rfl
        · rfl
      refine ⟨?_, fun id hid => ?_⟩
      · show ((s.tell selector l.id).listeners.map SelectedListener.id).Pairwise _
        rw [map_id_tell]
        exact h.sorted
      · show id < (s.tell selector l.id).nextId
        rw [hnext]
        exact h.fresh id (map_id_tell (s := s) l.id ▸ hid)
  | _ =>
    obtain rfl := Option.some.inj hs
    exact ⟨h.sorted, h.fresh⟩

/-! ## The value at which all of them fired

As long as the remembered value changes only while nobody else is subscribed,
it is the value at which every listener has fired. -/

/-- **Every listener fired last at the value that is remembered**, or subscribed then. -/
def Agrees (s : SelectedStore S V) : Prop := ∀ l ∈ s.listeners, l.base = s.last

theorem Agrees.subscribe (h : s.Agrees)
    (hG : s.remembersAlone selector .subscribe = true) : (s.subscribe selector).Agrees := by
  rw [remembersAlone, Bool.or_eq_true, Bool.not_eq_true', fires_eq_false_iff,
    List.isEmpty_iff] at hG
  intro l hl
  show l.base = s.compute selector
  rcases List.mem_append.mp hl with hl | hl
  · rcases hG with hG | hG
    · rw [h l hl, hG]
    · exact absurd (hG ▸ hl) List.not_mem_nil
  · rw [List.mem_singleton.mp hl]

theorem Agrees.getSnapshot (h : s.Agrees)
    (hG : s.remembersAlone selector .getSnapshot = true) :
    (s.getSnapshot selector).2.Agrees := by
  unfold SelectedStore.getSnapshot
  split
  · exact h
  · rw [remembersAlone, Bool.or_eq_true, Bool.not_eq_true', fires_eq_false_iff,
      List.isEmpty_iff] at hG
    intro l hl
    show l.base = s.compute selector
    rcases hG with hG | hG
    · rw [h l hl, hG]
    · exact absurd (hG ▸ hl) List.not_mem_nil

theorem Agrees.tell (h : s.Agrees) (hv : s.visited? = some l)
    (hG : s.remembersAlone selector .visit = true) : (s.tell selector l.id).Agrees := by
  unfold SelectedStore.tell
  split
  · next hf =>
    have hall : ∀ m ∈ s.listeners, m.id = l.id := by
      simpa [remembersAlone, hv, hf] using hG
    intro m hm
    obtain ⟨k, hk, rfl⟩ := List.mem_map.mp hm
    rw [if_pos (hall k hk)]
  · exact h

/-- **The listeners agree** as long as another value is remembered for none but one. -/
theorem Agrees.step (h : s.Agrees) (hG : s.remembersAlone selector x = true)
    (hs : s.step selector x = some s') : s'.Agrees := by
  cases x with
  | subscribe =>
    obtain rfl := Option.some.inj hs
    exact h.subscribe hG
  | unsubscribe id =>
    obtain rfl := Option.some.inj hs
    exact fun l hl => h l (List.mem_of_mem_filter hl)
  | getSnapshot =>
    obtain rfl := Option.some.inj hs
    exact h.getSnapshot hG
  | visit =>
    obtain ⟨rest, -, rfl⟩ | ⟨l, rest, hv, rfl⟩ := visit_eq_some hs
    · exact h
    · exact h.tell hv hG
  | _ =>
    obtain rfl := Option.some.inj hs
    exact h

theorem Agrees.firesRightly (h : s.Agrees) (x : SelectedAct S) : s.FiresRightly selector x := by
  cases x with
  | visit =>
    intro l hl
    rw [h l (visited?_mem hl), fires, decide_eq_true_iff]
  | _ => trivial

/-! ## Who is left behind

Two listeners that are told of one change: the first has the value remembered,
and the second finds nothing changed. -/

/-- **A listener has missed the change** to the value that is remembered. -/
def Misses (s : SelectedStore S V) (l : SelectedListener V) : Prop :=
  l ∈ s.listeners ∧ l.base ≠ s.last

/-- A value that is remembered while another listener is subscribed is one that it misses. -/
theorem Agrees.exists_misses (h : s.Agrees) (hG : ¬s.remembersAlone selector x = true)
    (hs : s.step selector x = some s') :
    s'.compute selector = s'.last ∧ ∃ l, s'.Misses l := by
  cases x with
  | subscribe =>
    obtain rfl := Option.some.inj hs
    obtain ⟨hf, hne⟩ : s.compute selector ≠ s.last ∧ s.listeners ≠ [] := by
      simpa [remembersAlone, fires] using hG
    obtain ⟨l, hl⟩ := List.exists_mem_of_ne_nil _ hne
    refine ⟨rfl, l, List.mem_append_left _ hl, ?_⟩
    show l.base ≠ s.compute selector
    rw [h l hl]
    exact hf.symm
  | getSnapshot =>
    obtain rfl := Option.some.inj hs
    obtain ⟨hf, hne⟩ : s.compute selector ≠ s.last ∧ s.listeners ≠ [] := by
      simpa [remembersAlone, fires] using hG
    obtain ⟨l, hl⟩ := List.exists_mem_of_ne_nil _ hne
    unfold SelectedStore.getSnapshot
    rw [if_neg (fun hsame => hf hsame.2)]
    refine ⟨rfl, l, hl, ?_⟩
    show l.base ≠ s.compute selector
    rw [h l hl]
    exact hf.symm
  | visit =>
    obtain ⟨rest, hv, -⟩ | ⟨l, rest, hv, rfl⟩ := visit_eq_some hs
    · exact absurd (by simp [remembersAlone, hv]) hG
    · obtain ⟨hf, m, hm, hne⟩ :
          s.compute selector ≠ s.last ∧ ∃ m ∈ s.listeners, m.id ≠ l.id := by
        simpa [remembersAlone, hv, fires] using hG
      have htell : s.tell selector l.id = _ := if_pos (decide_eq_true hf)
      rw [htell]
      refine ⟨rfl, m, List.mem_map.mpr ⟨m, hm, if_neg hne⟩, ?_⟩
      show m.base ≠ s.compute selector
      rw [h m hm]
      exact hf.symm
  | _ => exact absurd rfl hG

omit [DecidableEq V] in
/-- The loop comes to every listener after the place where it is. -/
theorem visited?_le (ho : s.Ordered) {start : ℕ} {rest : List ℕ} (hl : s.loops = start :: rest)
    (hmem : l ∈ s.listeners) (hle : start ≤ l.id) :
    ∃ m, s.visited? = some m ∧ start ≤ m.id ∧ (m = l ∨ m.id < l.id) := by
  have hv : s.visited? = s.listeners.find? (fun l => decide (start ≤ l.id)) := by
    unfold visited?
    rw [hl]
  obtain ⟨m, hm⟩ : ∃ m, s.listeners.find? (fun l => decide (start ≤ l.id)) = some m :=
    Option.isSome_iff_exists.mp (List.find?_isSome.mpr ⟨l, hmem, decide_eq_true hle⟩)
  obtain ⟨hstart, as, bs, hsplit, has⟩ := List.find?_eq_some_iff_append.mp hm
  refine ⟨m, hv.trans hm, of_decide_eq_true hstart, ?_⟩
  have hsorted := List.pairwise_map.mp ho.sorted
  rw [hsplit] at hmem hsorted
  rcases List.mem_append.mp hmem with hl | hl
  · exact absurd hle (by simpa using has l hl)
  · rcases List.mem_cons.mp hl with rfl | hl
    · exact .inl rfl
    · exact .inr ((List.pairwise_cons.mp (List.pairwise_append.mp hsorted).2.1).1 l hl)

/-- **The loop does not call the listener that has missed the change.** -/
theorem not_along_of_misses (ho : s.Ordered) (hlast : s.compute selector = s.last)
    (hm : s.Misses l) {start : ℕ} {rest : List ℕ} (hloops : s.loops = start :: rest)
    (hle : start ≤ l.id) :
    ∃ n, ¬TransitionSystem.Along (step selector) (FiresRightly selector) s
      (List.replicate n .visit) := by
  -- by how far the loop is from the listener
  induction hd : l.id - start using Nat.strong_induction_on generalizing s start with
  | h d ih =>
    obtain ⟨m, hv, hstart, hor⟩ := visited?_le ho hloops hm.1 hle
    have hf : s.fires selector = false := fires_eq_false_iff.mpr hlast
    rcases hor with rfl | hlt
    · refine ⟨1, fun halong => ?_⟩
      have hfires := halong.1 m hv
      rw [hf, hlast] at hfires
      exact absurd (hfires.mpr hm.2.symm) (by simp)
    · have htell : s.tell selector m.id = s := if_neg (by rw [hf]; simp)
      have hstep : s.step selector .visit = some { s with loops := (m.id + 1) :: rest } := by
        show s.visit selector = _
        unfold visit
        rw [hloops, hv]
        simp only [htell]
      obtain ⟨n, hn⟩ := ih (l.id - (m.id + 1)) (by omega) (ho.step hstep) hlast hm rfl
        (by omega) rfl
      refine ⟨n + 1, fun halong => hn ?_⟩
      exact (TransitionSystem.along_cons _ halong hstep).2

/-- **A listener fires when the selected value has changed for it, and only then**, in every
run in which another value is remembered only while no other listener is subscribed. After
a step in which it is not, the next notification is one that some listener misses. -/
theorem fires_when_changed (selector : S → Option V) (snapshot : Option S) :
    (∀ xs, TransitionSystem.Along (step selector)
        (fun s x => s.remembersAlone selector x = true) (init snapshot) xs →
      TransitionSystem.Along (step selector) (FiresRightly selector) (init snapshot) xs)
      ∧ ∀ xs x s s', TransitionSystem.run (step selector) (init snapshot) xs = some s →
        TransitionSystem.Along (step selector)
          (fun s x => s.remembersAlone selector x = true) (init snapshot) xs →
        s.step selector x = some s' → ¬s.remembersAlone selector x = true →
        ∃ ys, ¬TransitionSystem.Along (step selector) (FiresRightly selector) (init snapshot)
          (xs ++ x :: ys) := by
  have hinit : (init snapshot : SelectedStore S V).Agrees := fun _ h => absurd h List.not_mem_nil
  have hordered : (init snapshot : SelectedStore S V).Ordered :=
    ⟨List.Pairwise.nil, fun _ h => absurd h List.not_mem_nil⟩
  refine ⟨fun xs hG => ?_, fun xs x s s' hrun hG hs hnot => ?_⟩
  · exact TransitionSystem.along_invariant (step selector)
      (fun s x s' h hG hs => Agrees.step h hG hs) (fun s x h _ => h.firesRightly x) hinit hG
  · have hagrees : s.Agrees := TransitionSystem.run_invariant (step selector)
      (fun s x s' h hG hs => Agrees.step h hG hs) hinit hG hrun
    have ho : s.Ordered := TransitionSystem.run_invariant' (step selector)
      (fun s x s' h hs => Ordered.step h hs) hordered hrun
    obtain ⟨hlast, l, hmiss⟩ := hagrees.exists_misses hnot hs
    have hfail : s'.step selector .fail = some { s' with loops := 0 :: s'.loops } := rfl
    obtain ⟨n, hn⟩ := not_along_of_misses (s := { s' with loops := 0 :: s'.loops })
      ((ho.step hs).step hfail) hlast hmiss rfl (Nat.zero_le _)
    refine ⟨.fail :: List.replicate n .visit, fun halong => hn ?_⟩
    have hafter := (TransitionSystem.along_cons _ (halong.of_append _ hrun) hs).2
    exact (TransitionSystem.along_cons _ hafter hfail).2

/-! ### Two listeners -/

/-- One listener, which is told of two changes, whatever `getSnapshot` has read before it is. -/
def oneListener : List (SelectedAct ℕ) :=
  [.getSnapshot, .subscribe, .publish 5, .visit, .getSnapshot, .visit, .publish 6, .visit]

/-- Two listeners, and a change. -/
def twoListeners : List (SelectedAct ℕ) :=
  [.subscribe, .subscribe, .publish 5, .visit, .visit]

theorem fires_when_changed_oneListener :
    TransitionSystem.Along (step (fun n => some (n / 2))) (FiresRightly (fun n => some (n / 2)))
      (init (some 1)) oneListener :=
  (fires_when_changed (fun n => some (n / 2)) (some 1)).1 oneListener (by decide)

theorem not_firesRightly :
    ¬∀ xs : List (SelectedAct ℕ), TransitionSystem.Along (step (fun n => some (n / 2)))
      (FiresRightly (fun n => some (n / 2))) (init (some 1)) xs := by
  intro h
  -- the second of the two is not called
  obtain ⟨-, -, -, -, hfires, -⟩ := h twoListeners
  have hsecond := hfires ⟨1, some 0⟩ rfl
  exact absurd hsecond (by decide)

end SelectedStore
