import Actjs.LoaderRefs

/-!
# The bound on the loader's cache

A load that puts an entry evicts one when the cache has grown beyond `maxEntries`: the
least recently used of those without references, and never the one just put. So the
cache is over its bound where everything else is held, and that is meant to be the only
way.

It is over it in another way when more than one entry has come to be without
references while the cache was over its bound. References pin entries as loads go on
putting more, and let go of them later; the next load evicts one of them and leaves the
rest.
-/

namespace OrderedMap

variable {K V : Type} [DecidableEq K] {m : OrderedMap K V} {k : K} {v : V}

/-- An entry and the others. -/
theorem perm_delete (h : m.get k = some v) : m.entries.Perm ((k, v) :: (m.delete k).entries) := by
  refine (List.perm_ext_iff_of_nodup m.nodup.of_map ?_).mpr (fun e => ?_)
  · refine List.nodup_cons.mpr ⟨fun hm => ?_, (m.delete k).nodup.of_map⟩
    exact of_decide_eq_true (List.mem_filter.mp hm).2 rfl
  · obtain ⟨l, w⟩ := e
    rw [List.mem_cons, mem_entries, mem_entries, get_delete, Prod.mk.injEq]
    by_cases hl : l = k
    · subst hl
      simp [h, eq_comm]
    · simp [hl]

/-- Setting a key leaves the others. -/
theorem perm_set : (m.set k v).entries.Perm ((k, v) :: (m.delete k).entries) := by
  refine (perm_delete get_set_self).trans (List.Perm.cons _ (perm_iff.mpr (fun l => ?_)))
  rw [get_delete, get_delete, get_set]
  split <;> rfl

/-- Of the other entries there are as many as before. -/
theorem countP_delete {p : K × V → Bool} (hp : ∀ v, p (k, v) = false) :
    (m.delete k).entries.countP p = m.entries.countP p := by
  refine (List.countP_filter ..).trans (List.countP_congr (fun e _ => ?_))
  simp only [Bool.and_eq_true, decide_eq_true_eq, and_iff_left_iff_imp]
  rintro he rfl
  exact absurd he (by rw [hp e.snd]; decide)

theorem countP_set {p : K × V → Bool} (hp : ∀ v, p (k, v) = false) :
    (m.set k v).entries.countP p = m.entries.countP p := by
  rw [perm_set.countP_eq, List.countP_cons_of_neg (by rw [hp v]; decide), countP_delete hp]

end OrderedMap

namespace ClassLoader

variable {C : Type}

/-- An entry that could be evicted for one of the hash `sha`. -/
def evictable (sha : String) (e : String × CacheEntry C) : Bool :=
  decide (e.fst ≠ sha) && e.snd.refCount == 0

/-- **What is to hold after an entry has been put**: the cache is within its bound, or
every other entry is held. -/
def Bounded (l : ClassLoader C) (sha : String) : Prop :=
  l.bySha.entries.length ≤ l.maxEntries
    ∨ ∀ e ∈ l.bySha.entries, e.fst ≠ sha → 0 < e.snd.refCount

/-- **There is room for an entry**: no more than `maxEntries` others, or no more than one
of them that could be evicted. -/
def HasRoom (l : ClassLoader C) (sha : String) : Prop :=
  l.bySha.entries.countP (fun e => e.fst ≠ sha) ≤ l.maxEntries
    ∨ l.bySha.entries.countP (evictable sha) ≤ 1

instance (l : ClassLoader C) (sha : String) : Decidable (l.Bounded sha) :=
  inferInstanceAs (Decidable (_ ∨ _))

theorem evictable_iff {sha : String} {e : String × CacheEntry C} :
    evictable sha e = true ↔ e.fst ≠ sha ∧ e.snd.refCount = 0 := by
  simp [evictable]

/-- No other entry can be evicted if and only if every other entry is held. -/
theorem countP_evictable_eq_zero {sha : String} {es : List (String × CacheEntry C)} :
    es.countP (evictable sha) = 0 ↔ ∀ e ∈ es, e.fst ≠ sha → 0 < e.snd.refCount := by
  rw [List.countP_eq_zero]
  refine forall₂_congr (fun e _ => ?_)
  rw [evictable_iff, not_and, Nat.pos_iff_ne_zero]

/-- `maybeEvict` finds one if there is one. -/
theorem oldest_eq_none {sha : String} {es : List (String × CacheEntry C)}
    (h : oldest sha es = none) : es.countP (evictable sha) = 0 := by
  induction es with
  | nil => rfl
  | cons e es ih =>
    rw [oldest] at h
    split at h
    · next he =>
      rw [List.countP_cons_of_neg, ih h]
      rw [evictable_iff, not_and]
      exact fun hne => Nat.ne_of_gt (he.resolve_right hne)
    · split at h
      · exact absurd h (by simp)
      · split at h <;> exact absurd h (by simp)

/-- **One entry is evicted at most**: the bound holds afterwards if and only if it is
exceeded by one entry at most, or no more than one can be evicted. -/
theorem bounded_maybeEvict_iff (l : ClassLoader C) (sha : String) :
    (l.maybeEvict sha).Bounded sha ↔ l.bySha.entries.length ≤ l.maxEntries + 1
      ∨ l.bySha.entries.countP (evictable sha) ≤ 1 := by
  unfold maybeEvict
  split
  · next hle => exact iff_of_true (.inl hle) (.inl (Nat.le_succ_of_le hle))
  split
  · next hnone =>
    have h0 := oldest_eq_none hnone
    exact iff_of_true (.inr (countP_evictable_eq_zero.mp h0)) (.inr (h0 ▸ Nat.zero_le 1))
  · next e he =>
    obtain ⟨hm, h0, hne⟩ := oldest_mem he
    have hperm := OrderedMap.perm_delete (OrderedMap.mem_entries.mp hm)
    have hlen := hperm.length_eq
    have hcount := hperm.countP_eq (evictable sha)
    rw [List.length_cons] at hlen
    rw [List.countP_cons_of_pos (evictable_iff.mpr ⟨hne, h0⟩)] at hcount
    unfold Bounded
    dsimp only
    rw [← countP_evictable_eq_zero, hlen, hcount]
    exact or_congr Nat.add_le_add_iff_right.symm (by omega)

/-- **An entry is put within the bound if and only if there is room for it.** -/
theorem bounded_cachePut_iff (l : ClassLoader C) (sha : String) (ctor : C) (now : ℤ) :
    (l.cachePut sha ctor now).Bounded sha ↔ l.HasRoom sha := by
  have hsize : (l.setEntry sha ⟨ctor, now, 0⟩).bySha.entries.length
      = l.bySha.entries.countP (fun e => e.fst ≠ sha) + 1 := by
    rw [setEntry, OrderedMap.perm_set.length_eq, List.length_cons, List.countP_eq_length_filter]
    rfl
  have hfree : (l.setEntry sha ⟨ctor, now, 0⟩).bySha.entries.countP (evictable sha)
      = l.bySha.entries.countP (evictable sha) :=
    OrderedMap.countP_set (fun e => by simp [evictable])
  rw [cachePut, bounded_maybeEvict_iff, hsize, hfree, setEntry_maxEntries]
  exact or_congr Nat.add_le_add_iff_right Iff.rfl

/-! ### What is over the bound is held -/

/-- The cache is within its bound, or no more than one entry of it is not held. -/
def Tight (l : ClassLoader C) : Prop :=
  l.bySha.entries.length ≤ l.maxEntries
    ∨ l.bySha.entries.countP (fun e => e.snd.refCount == 0) ≤ 1

/-- Then there is room for any entry. -/
theorem Tight.hasRoom {l : ClassLoader C} (h : l.Tight) (sha : String) : l.HasRoom sha := by
  refine h.imp (List.countP_le_length.trans) (fun h => ?_)
  refine (List.countP_mono_left (fun e _ he => ?_)).trans h
  exact (Bool.and_eq_true _ _ ▸ he).2

/-- An entry that is not let go of leaves it so. -/
theorem Tight.setEntry {l : ClassLoader C} {sha : String} {e e' : CacheEntry C} (h : l.Tight)
    (he : l.bySha.get sha = some e)
    (hheld : e'.refCount = 0 → e.refCount = 0 ∨ l.bySha.entries.length ≤ l.maxEntries) :
    (l.setEntry sha e').Tight := by
  have hperm := OrderedMap.perm_delete he
  have hset := OrderedMap.perm_set (m := l.bySha) (k := sha) (v := e')
  have hlen : (l.setEntry sha e').bySha.entries.length = l.bySha.entries.length :=
    hset.length_eq.trans hperm.length_eq.symm
  unfold Tight
  rw [hlen, setEntry_maxEntries]
  refine or_iff_not_imp_left.mpr (fun hover => ?_)
  have hfree := h.resolve_left hover
  rw [hperm.countP_eq, List.countP_cons] at hfree
  rw [ClassLoader.setEntry, hset.countP_eq, List.countP_cons]
  refine le_trans (Nat.add_le_add_left ?_ _) hfree
  by_cases h0 : e'.refCount = 0
  · simp [h0, (hheld h0).resolve_right hover]
  · simp [h0]

/-- **An entry that is put** leaves it so: where the cache is over its bound, what could
be evicted has been. -/
theorem Tight.cachePut {l : ClassLoader C} (h : l.Tight) (sha : String) (ctor : C) (now : ℤ) :
    (l.cachePut sha ctor now).Tight := by
  have hbounded := (bounded_cachePut_iff l sha ctor now).mpr (h.hasRoom sha)
  refine hbounded.imp_right (fun hheld => ?_)
  have hget := get_cachePut_self l sha ctor now
  rw [(OrderedMap.perm_delete hget).countP_eq, List.countP_cons, List.countP_eq_zero.mpr]
  · simp
  · intro e he
    obtain ⟨hm, hne⟩ := List.mem_filter.mp he
    have hpos := hheld e hm (of_decide_eq_true hne)
    simpa using Nat.ne_of_gt hpos

theorem Tight.acquire {l : ClassLoader C} (h : l.Tight) (sha : String) :
    (l.acquire sha).Tight := by
  unfold ClassLoader.acquire
  split
  · exact h
  · next e he => exact h.setEntry he (fun h0 => absurd h0 (Nat.succ_ne_zero _))

/-- An entry's last reference is let go of where the cache is within its bound. -/
theorem Tight.release {l : ClassLoader C} (h : l.Tight) {sha : String}
    (hlast : ∀ e, l.bySha.get sha = some e → e.refCount = 1 →
      l.bySha.entries.length ≤ l.maxEntries) :
    (l.release sha).Tight := by
  unfold ClassLoader.release
  split
  · exact h
  · next e he =>
    refine h.setEntry he (fun h0 => ?_)
    obtain h0 | h1 : e.refCount = 0 ∨ e.refCount = 1 := by
      dsimp only at h0
      omega
    · exact .inl h0
    · exact .inr (hlast e he h1)

end ClassLoader

/-! ## Loads, acquisitions and releases

A load in two steps, as the calls of several hosts interleave; the bound is
looked at where an entry is put. -/

/-- A loader with the loads that are going on. -/
structure LoaderCalls (C : Type) where
  compiler : Compiler C
  calls : List (ClassName × Version × LoadCall)

/-- What happens: a load begins; what it awaits is there, of the driver `d` when the
clock shows `now`, or fails; an entry is acquired or released. -/
inductive LoaderCall where
  | load (name : ClassName) (version : Version)
  | resume (i : ℕ) (d : ClassDriver) (now : ℤ)
  | reject (i : ℕ)
  | acquire (sha : String)
  | release (sha : String)

namespace LoaderCalls

variable {C : Type} (evaluate : ℕ → List UInt8 → Except (List String) C)

/-- A loader that has loaded nothing. -/
def init (maxEntries : ℕ) : LoaderCalls C := ⟨⟨.new maxEntries, 0⟩, []⟩

/-- The loader. -/
def loader (s : LoaderCalls C) : ClassLoader C := s.compiler.loader

/-- The loader changes. -/
def setLoader (s : LoaderCalls C) (l : ClassLoader C) : LoaderCalls C :=
  { s with compiler := { s.compiler with loader := l } }

/-- What a load has come to. -/
def resumed (s : LoaderCalls C) (i : ℕ) (name : ClassName) (version : Version) :
    LoadOutcome C × Compiler C → LoaderCalls C
  | (.waits call, c) => ⟨c, s.calls.set i (name, version, call)⟩
  | (.throws _, c) | (.returns _ _, c) => ⟨c, s.calls.eraseIdx i⟩

/-- **A step.** -/
def step (s : LoaderCalls C) : LoaderCall → Option (LoaderCalls C)
  | .load name version => some { s with calls := s.calls ++ [(name, version, .listing)] }
  | .resume i d now =>
    s.calls[i]?.map (fun c => s.resumed i c.fst c.snd.fst
      (c.snd.snd.resume evaluate d c.fst c.snd.fst now s.compiler))
  | .reject i => s.calls[i]?.map (fun _ => { s with calls := s.calls.eraseIdx i })
  | .acquire sha => some (s.setLoader (s.loader.acquire sha))
  | .release sha => some (s.setLoader (s.loader.release sha))

/-- The hash that a step puts an entry of. -/
def puts (s : LoaderCalls C) : LoaderCall → Option String
  | .resume i _ _ =>
    match s.calls[i]? with
    | some (_, _, .evaluating v source n) =>
      match evaluate n source with
      | .ok _ => some v.record.sourceSha256
      | .error _ => none
    | _ => none
  | _ => none

/-- **A load puts an entry within the bound.** -/
def PutsBounded (s : LoaderCalls C) (c : LoaderCall) : Prop :=
  ∀ sha ∈ s.puts evaluate c, ∀ s' ∈ s.step evaluate c, s'.loader.Bounded sha

/-- **There is room** for the entry that a load puts. -/
def PutsWithRoom (s : LoaderCalls C) (c : LoaderCall) : Prop :=
  ∀ sha ∈ s.puts evaluate c, s.loader.HasRoom sha

/-- A step that puts an entry does nothing else to the loader. -/
theorem puts_spec {s : LoaderCalls C} {c : LoaderCall} {sha : String}
    (h : s.puts evaluate c = some sha) :
    ∃ ctor now s', s.step evaluate c = some s' ∧ s'.loader = s.loader.cachePut sha ctor now := by
  cases c with
  | resume i d now =>
    rw [puts] at h
    split at h
    · next name version v source n hi =>
      split at h
      · next ctor hctor =>
        obtain rfl := Option.some.inj h
        refine ⟨ctor, now, _, by rw [step, hi, Option.map_some], ?_⟩
        simp only [LoadCall.resume, hctor, resumed, loader]
      · exact absurd h (by simp)
    · exact absurd h (by simp)
  | load _ _ | reject _ | acquire _ | release _ => exact absurd h (by simp [puts])

/-- **A step puts its entry within the bound if and only if there is room for it.** -/
theorem putsBounded_iff (s : LoaderCalls C) (c : LoaderCall) :
    s.PutsBounded evaluate c ↔ s.PutsWithRoom evaluate c := by
  refine forall₂_congr (fun sha hsha => ?_)
  obtain ⟨ctor, now, s', hs, hl⟩ := puts_spec evaluate hsha
  rw [← ClassLoader.bounded_cachePut_iff s.loader sha ctor now, ← hl, hs]
  simp

/-- No release lets go of an entry's last reference while the cache is over its
bound. -/
def ReleasesWithin (s : LoaderCalls C) : LoaderCall → Prop
  | .release sha => ∀ e, s.loader.bySha.get sha = some e → e.refCount = 1 →
      s.loader.bySha.entries.length ≤ s.loader.maxEntries
  | _ => True

theorem tight_step {s s' : LoaderCalls C} {c : LoaderCall} (h : s.loader.Tight)
    (hc : s.ReleasesWithin c) (hs : s.step evaluate c = some s') : s'.loader.Tight := by
  cases c with
  | load name version =>
    obtain rfl := Option.some.inj hs
    exact h
  | reject i =>
    obtain ⟨_, -, rfl⟩ := Option.map_eq_some_iff.mp hs
    exact h
  | acquire sha =>
    obtain rfl := Option.some.inj hs
    exact h.acquire sha
  | release sha =>
    obtain rfl := Option.some.inj hs
    exact h.release hc
  | resume i d now =>
    obtain ⟨⟨name, version, call⟩, -, rfl⟩ := Option.map_eq_some_iff.mp hs
    obtain ⟨o, ho⟩ : ∃ o, call.resume evaluate d name version now s.compiler = o := ⟨_, rfl⟩
    have hl : (s.resumed i name version o).loader = o.snd.loader := by
      obtain ⟨out, c⟩ := o
      cases out <;> rfl
    dsimp only
    rw [ho, hl]
    obtain he | ⟨sha, e, he, hset⟩ | ⟨v, _, _, ctor, _, _, hput⟩ := LoadCall.resume_loader ho
    · exact he ▸ h
    · exact hset ▸ h.setEntry he .inl
    · exact hput ▸ h.cachePut _ ctor now

/-- **The bound on the cache**: in every run of loads, acquisitions and releases, every
entry is put within the bound if and only if there is room for each when it is put. There
always is where no release lets go of an entry's last reference while the cache is over
its bound. -/
theorem cache_bounded (maxEntries : ℕ) (cs : List LoaderCall) :
    (TransitionSystem.Along (step evaluate) (PutsBounded evaluate) (init maxEntries) cs
        ↔ TransitionSystem.Along (step evaluate) (PutsWithRoom evaluate) (init maxEntries) cs)
      ∧ (TransitionSystem.Along (step evaluate) ReleasesWithin (init maxEntries) cs →
          TransitionSystem.Along (step evaluate) (PutsWithRoom evaluate) (init maxEntries)
            cs) := by
  refine ⟨⟨.mono _ (fun s c => (putsBounded_iff evaluate s c).mp),
    .mono _ (fun s c => (putsBounded_iff evaluate s c).mpr)⟩, fun hwithin => ?_⟩
  exact TransitionSystem.along_invariant (step evaluate) (P := fun s => s.loader.Tight)
    (fun _ _ _ h hc hs => tight_step evaluate h hc hs)
    (fun _ _ h _ sha _ => h.hasRoom sha) (.inl (Nat.zero_le _)) hwithin

/-! ### Three carts -/

/-- A driver with a class of every name, in one version. -/
def cartDriver : ClassDriver where
  listClassVersions name :=
    [⟨name, "1.0.0", ⟨name, [], [], 0, none, none, false, false, none⟩⟩]
  getClassSource _ _ := some []

/-- A whole load of a class. -/
def loadCart (name : ClassName) (now : ℤ) : List LoaderCall :=
  [.load name "1.0.0", .resume 0 cartDriver now, .resume 0 cartDriver now,
    .resume 0 cartDriver now]

/-- A class is loaded and held, a second one is loaded, the first is let go of, and a
third is loaded. -/
def threeCarts : List LoaderCall :=
  loadCart "A" 1 ++ [.acquire "A"] ++ loadCart "B" 2 ++ [.release "A"] ++ loadCart "C" 3

instance (s : LoaderCalls C) (c : LoaderCall) : Decidable (s.PutsBounded evaluate c) :=
  inferInstanceAs (Decidable (∀ sha ∈ _, ∀ s' ∈ _, _))

/-- A cache for one entry holds two in the end, and neither is held. -/
theorem not_cache_bounded :
    (TransitionSystem.run (step (fun _ _ => .ok ())) (init 1) threeCarts).map
        (fun s => s.loader.bySha.entries.map (fun e => (e.fst, e.snd.refCount)))
      = some [("B", 0), ("C", 0)]
    ∧ ¬TransitionSystem.Along (step (fun _ _ => .ok ())) (PutsBounded (fun _ _ => .ok ()))
        (init 1) threeCarts := by
  decide +kernel

end LoaderCalls
