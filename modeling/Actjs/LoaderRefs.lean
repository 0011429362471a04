import Actjs.Holders
import Actjs.RegistryDriver
import Actjs.Transition

/-!
# Whether the loader counts its references

A host that runs an older version loads it, asks for the hash of its source again, and
acquires the entry of that hash; it releases it when it is deactivated. A load, the
second look-up, and all the rest of an activation are steps of their own, and other
hosts, other loads and the registry go on between them.

An entry's count is right as long as no load puts an entry in place of one that is
held, no entry is evicted between a load and the acquisition, and nothing fails from
the acquisition of an entry to its release.
-/

/-! ## The state -/

/-- Where a host is. A host that runs a class runs the source with this hash, or what
the runtime was registered with. -/
inductive HostPhase where
  | inactive
  /-- In `loader.load` of an older version. -/
  | loading (version : Version) (call : LoadCall)
  /-- In `loader.sha256For`, with the constructor of the source with this hash. -/
  | hashing (version : Version) (sha : String)
  /-- In the rest of the activation. -/
  | starting (sha : Option String)
  | live (sha : Option String)
  | stopping (sha : Option String)

/-- What the loader has to do with of a host. -/
structure LoaderHost where
  className : ClassName
  phase : HostPhase
  runningSha : Option String

namespace LoaderHost

/-- The hash of the source that it runs, from when it has acquired it to when it has let
go of it. -/
def source (h : LoaderHost) : Option String :=
  match h.phase with
  | .starting sha | .live sha | .stopping sha => sha
  | .inactive | .loading _ _ | .hashing _ _ => none

/-- **The host runs the source with this hash.** -/
def runs (sha : String) (h : LoaderHost) : Bool := h.source == some sha

end LoaderHost

/-- **A loader**, over a driver, with the hosts that use it and the loads of others. -/
structure LoaderRefs (R : RegistryDriver) (C : Type) where
  registry : R.State
  compiler : Compiler C
  calls : List (ClassName × Version × LoadCall)
  hosts : List LoaderHost

/-! ## Steps -/

/-- What happens. The `n`-th host is meant, and the `i`-th load of the others. -/
inductive LoaderAct where
  | registry (op : ClassOp)
  | load (name : ClassName) (version : Version)
  | resume (i : ℕ)
  | reject (i : ℕ)
  | new (className : ClassName)
  /-- A host is activated: with the constructor of the runtime, or with that of an
  older version that it sticks to. -/
  | activate (n : ℕ) (sticky : Option Version)
  /-- What its load awaits is there. -/
  | hostResume (n : ℕ)
  /-- `sha256For` has answered. -/
  | hashed (n : ℕ)
  /-- The activation is done, -/
  | activated (n : ℕ)
  /-- or fails, wherever it is. -/
  | fail (n : ℕ)
  | deactivate (n : ℕ)
  /-- The deactivation is done, -/
  | deactivated (n : ℕ)
  /-- or its last flush fails. -/
  | deactivateFails (n : ℕ)

namespace LoaderRefs

variable {R : RegistryDriver} {C : Type} (evaluate : ℕ → List UInt8 → Except (List String) C)

def init (registry : R.State) (maxEntries : ℕ) : LoaderRefs R C :=
  ⟨registry, ⟨.new maxEntries, 0⟩, [], []⟩

/-- How many hosts run the source with this hash. -/
def running (s : LoaderRefs R C) (sha : String) : ℕ := s.hosts.countP (LoaderHost.runs sha)

/-- A host changes. -/
def setHost (s : LoaderRefs R C) (n : ℕ) (h : LoaderHost) : LoaderRefs R C :=
  { s with hosts := s.hosts.set n h }

/-- The loader changes. -/
def setLoader (s : LoaderRefs R C) (l : ClassLoader C) : LoaderRefs R C :=
  { s with compiler := { s.compiler with loader := l } }

/-- What a load of others does. -/
def resumed (s : LoaderRefs R C) (i : ℕ) (name : ClassName) (version : Version) :
    LoadOutcome C × Compiler C → LoaderRefs R C
  | (.waits call, c) =>
    { s with compiler := c, calls := s.calls.set i (name, version, call) }
  | (.throws _, c) | (.returns _ _, c) =>
    { s with compiler := c, calls := s.calls.eraseIdx i }

/-- What the load of a host does. -/
def hostResumed (s : LoaderRefs R C) (n : ℕ) (h : LoaderHost) (version : Version) :
    LoadOutcome C × Compiler C → LoaderRefs R C
  | (.waits call, c) =>
    { s with compiler := c }.setHost n { h with phase := .loading version call }
  | (.throws _, c) => { s with compiler := c }.setHost n { h with phase := .inactive }
  | (.returns sha _, c) =>
    { s with compiler := c }.setHost n { h with phase := .hashing version sha }

/-- What follows `sha256For`: the entry of the hash is acquired, if there is one. -/
def acquired (s : LoaderRefs R C) (n : ℕ) (h : LoaderHost) (sha : String) :
    Option ListedVersion → LoaderRefs R C
  | none => s.setHost n { h with phase := .starting (some sha) }
  | some v =>
    (s.setLoader (s.compiler.loader.acquire v.record.sourceSha256)).setHost n
      { h with phase := .starting (some sha), runningSha := some v.record.sourceSha256 }

/-- The end of `doDeactivate`: what is held is released. -/
def released (s : LoaderRefs R C) (n : ℕ) (h : LoaderHost) : LoaderRefs R C :=
  match h.runningSha with
  | none => s.setHost n { h with phase := .inactive }
  | some sha =>
    (s.setLoader (s.compiler.loader.release sha)).setHost n
      { h with phase := .inactive, runningSha := none }

/-- A step of a host, where it is. -/
def hostStep (s : LoaderRefs R C) (now : ℤ) (n : ℕ) (h : LoaderHost) :
    HostPhase → LoaderAct → Option (LoaderRefs R C)
  | .inactive, .activate _ none => some (s.setHost n { h with phase := .starting none })
  | .inactive, .activate _ (some version) =>
    some (s.setHost n { h with phase := .loading version .listing })
  | .loading version call, .hostResume _ =>
    some (s.hostResumed n h version
      (call.resume evaluate (R.driver s.registry) h.className version now s.compiler))
  | .hashing version sha, .hashed _ =>
    some (s.acquired n h sha (ClassLoader.lookupRecord
      ((R.driver s.registry).listClassVersions h.className) version))
  | .loading _ _, .fail _ | .hashing _ _, .fail _ | .starting _, .fail _ =>
    some (s.setHost n { h with phase := .inactive })
  | .starting sha, .activated _ => some (s.setHost n { h with phase := .live sha })
  | .live sha, .deactivate _ => some (s.setHost n { h with phase := .stopping sha })
  | .stopping _, .deactivated _ => some (s.released n h)
  | .stopping _, .deactivateFails _ => some (s.setHost n { h with phase := .inactive })
  | _, _ => none

/-- The host that a step is of. -/
def hostOf : LoaderAct → ℕ
  | .activate n _ | .hostResume n | .hashed n | .activated n | .fail n | .deactivate n
  | .deactivated n | .deactivateFails n => n
  | _ => 0

/-- **A step**, at its time. -/
def step (s : LoaderRefs R C) : ℤ × LoaderAct → Option (LoaderRefs R C)
  | (now, .registry op) => some { s with registry := R.apply s.registry now op }
  | (_, .load name version) => some { s with calls := s.calls ++ [(name, version, .listing)] }
  | (now, .resume i) =>
    s.calls[i]?.map (fun (name, version, call) =>
      s.resumed i name version
        (call.resume evaluate (R.driver s.registry) name version now s.compiler))
  | (_, .reject i) => s.calls[i]?.map (fun _ => { s with calls := s.calls.eraseIdx i })
  | (_, .new className) => some { s with hosts := s.hosts ++ [⟨className, .inactive, none⟩] }
  | (now, act) =>
    s.hosts[hostOf act]?.bind (fun h => s.hostStep evaluate now (hostOf act) h h.phase act)

/-! ## What is to hold

The count of an entry is the number of hosts that run what it has. `usedWell`
excludes what puts the two apart, each at the step that does. -/

/-- No entry of a source that runs is replaced by the end of this call. -/
def putsWell (s : LoaderRefs R C) : LoadCall → Bool
  | .evaluating v source n =>
    match evaluate n source with
    | .error _ => true
    | .ok _ => s.running v.record.sourceSha256 == 0
  | _ => true

/-- What a host has loaded is still cached when it acquires it; and it does not fail
while it holds an entry. -/
def hostUsedWell (s : LoaderRefs R C) : HostPhase → LoaderAct → Bool
  | .loading _ call, .hostResume _ => s.putsWell evaluate call
  | .hashing _ sha, .hashed _ => (s.compiler.loader.bySha.get sha).isSome
  | .starting sha, .fail _ => sha == none
  | .stopping sha, .deactivateFails _ => sha == none
  | _, _ => true

/-- **The loader is used well**: no load puts an entry of a source that runs; what a
host has loaded is still cached when it acquires it; and neither the activation nor
the deactivation of a host fails while it holds an entry. -/
def usedWell (s : LoaderRefs R C) : ℤ × LoaderAct → Bool
  | (_, .registry _) | (_, .load _ _) | (_, .reject _) | (_, .new _) => true
  | (_, .resume i) => s.calls[i]?.all (fun c => s.putsWell evaluate c.snd.snd)
  | (_, act) => s.hosts[hostOf act]?.all (fun h => s.hostUsedWell evaluate h.phase act)

/-- **The references are counted**: an entry's count is how many hosts run its source,
and a source that runs has an entry. -/
structure Counted (s : LoaderRefs R C) : Prop where
  count : ∀ sha e, s.compiler.loader.bySha.get sha = some e → e.refCount = s.running sha
  entry : ∀ sha, s.running sha ≠ 0 → (s.compiler.loader.bySha.get sha).isSome = true

/-- The entries of sources that run are kept: what is there is there after the step,
with the same constructor. -/
def Kept (s s' : LoaderRefs R C) : Prop :=
  ∀ sha e, s.running sha ≠ 0 → s.compiler.loader.bySha.get sha = some e →
    ∃ e', s'.compiler.loader.bySha.get sha = some e' ∧ e'.ctor = e.ctor

end LoaderRefs

/-! ## The loader and its counts -/

namespace ClassLoader

variable {C : Type} {l : ClassLoader C} {count : String → ℕ} {sha : String}
  {e : CacheEntry C}

/-- The counts of the entries are these, and what is counted has an entry. -/
structure Agrees (l : ClassLoader C) (count : String → ℕ) : Prop where
  refCount : ∀ sha e, l.bySha.get sha = some e → e.refCount = count sha
  entry : ∀ sha, count sha ≠ 0 → (l.bySha.get sha).isSome = true

/-- The entries that are counted are kept. -/
def Keeps (count : String → ℕ) (l l' : ClassLoader C) : Prop :=
  ∀ sha e, count sha ≠ 0 → l.bySha.get sha = some e →
    ∃ e', l'.bySha.get sha = some e' ∧ e'.ctor = e.ctor

theorem Keeps.refl : Keeps count l l := fun _ e _ he => ⟨e, he, rfl⟩

/-- An entry that changes is kept, with its constructor, -/
theorem Keeps.setEntry {e' : CacheEntry C} (he : l.bySha.get sha = some e)
    (hc : e'.ctor = e.ctor) : Keeps count l (l.setEntry sha e') := by
  intro sha' e₀ _ he₀
  rw [get_setEntry]
  split
  · next hs =>
    subst hs
    obtain rfl := Option.some.inj (he.symm.trans he₀)
    exact ⟨e', rfl, hc⟩
  · exact ⟨e₀, he₀, rfl⟩

/-- and its count is what it is said to be. -/
theorem Agrees.setEntry {e' : CacheEntry C} {count' : String → ℕ} (h : l.Agrees count)
    (hc : e'.refCount = count' sha) (hother : ∀ sha', sha' ≠ sha → count' sha' = count sha') :
    (l.setEntry sha e').Agrees count' where
  refCount sha' e₀ he₀ := by
    rw [get_setEntry] at he₀
    split at he₀
    · next hs =>
      obtain rfl := Option.some.inj he₀
      rw [hc, hs]
    · next hs => rw [h.refCount sha' e₀ he₀, hother sha' hs]
  entry sha' hne := by
    rw [get_setEntry]
    split
    · rfl
    · next hs => exact h.entry sha' (hother sha' hs ▸ hne)

/-- What is not counted may be put anew, and what is not counted may go for it. -/
theorem Agrees.cachePut {ctor : C} {now : ℤ} (h : l.Agrees count) (h0 : count sha = 0) :
    (l.cachePut sha ctor now).Agrees count ∧ Keeps count l (l.cachePut sha ctor now) := by
  have hkept : ∀ sha' e₀, count sha' ≠ 0 → l.bySha.get sha' = some e₀ →
      (l.cachePut sha ctor now).bySha.get sha' = some e₀ := by
    intro sha' e₀ hne he₀
    refine get_cachePut_of_ref he₀ (fun hs => hne (hs ▸ h0)) ?_
    rw [h.refCount sha' e₀ he₀]
    exact hne
  refine ⟨⟨fun sha' e₀ he₀ => ?_, fun sha' hne => ?_⟩, fun sha' e₀ hne he₀ =>
    ⟨e₀, hkept sha' e₀ hne he₀, rfl⟩⟩
  · by_cases hs : sha' = sha
    · subst hs
      rw [get_cachePut_self] at he₀
      obtain rfl := Option.some.inj he₀
      exact h0.symm
    · exact h.refCount sha' e₀ (get_of_get_cachePut he₀ hs)
  · obtain ⟨e₀, he₀⟩ := Option.isSome_iff_exists.mp (h.entry sha' hne)
    rw [hkept sha' e₀ hne he₀]
    rfl

/-- `acquire` counts one more, -/
theorem Agrees.acquire {count' : String → ℕ} (h : l.Agrees count)
    (hsome : (l.bySha.get sha).isSome = true) (hc : count' sha = count sha + 1)
    (hother : ∀ sha', sha' ≠ sha → count' sha' = count sha') :
    (l.acquire sha).Agrees count' ∧ Keeps count l (l.acquire sha) := by
  obtain ⟨e, he⟩ := Option.isSome_iff_exists.mp hsome
  unfold ClassLoader.acquire
  rw [he]
  refine ⟨h.setEntry ?_ hother, Keeps.setEntry he rfl⟩
  show e.refCount + 1 = _
  rw [hc, h.refCount sha e he]

/-- and `release` one less. -/
theorem Agrees.release {count' : String → ℕ} (h : l.Agrees count)
    (hc : count' sha + 1 = count sha)
    (hother : ∀ sha', sha' ≠ sha → count' sha' = count sha') :
    (l.release sha).Agrees count' ∧ Keeps count l (l.release sha) := by
  obtain ⟨e, he⟩ := Option.isSome_iff_exists.mp (h.entry sha (by omega))
  unfold ClassLoader.release
  rw [he]
  refine ⟨h.setEntry ?_ hother, Keeps.setEntry he rfl⟩
  have hcount := h.refCount sha e he
  show e.refCount - 1 = _
  omega

end ClassLoader

/-! ## Loads

What a call that waits knows of its version stays true, whatever else is
published meanwhile. -/

section Loads

variable {C : Type} {evaluate : ℕ → List UInt8 → Except (List String) C} {d d' : ClassDriver}
  {name : ClassName} {version : Version} {now : ℤ} {c : Compiler C} {call : LoadCall}
  {o : LoadOutcome C × Compiler C}

/-- A call knows the hash of its version. -/
def LoadCall.Knows (d : ClassDriver) (name : ClassName) (version : Version) :
    LoadCall → Prop
  | .listing => True
  | .fetching v | .evaluating v _ _ => d.HasSha name version v.record.sourceSha256

theorem hasSha_of_findUsable {v : ListedVersion}
    (h : ClassLoader.findUsable (d.listClassVersions name) name version now = .ok v) :
    d.HasSha name version v.record.sourceSha256 :=
  ⟨v, ClassLoader.lookup_of_findUsable h, rfl⟩

/-- It goes on knowing it, and what it returns has that hash. -/
theorem LoadCall.Knows.resume (h : call.Knows d name version)
    (ho : call.resume evaluate d name version now c = o) :
    match o.fst with
    | .waits call => call.Knows d name version
    | .throws _ => True
    | .returns sha _ => d.HasSha name version sha := by
  subst ho
  cases call with
  | listing =>
    rw [LoadCall.resume]
    cases hv : ClassLoader.findUsable (d.listClassVersions name) name version now with
    | error e => trivial
    | ok v =>
      dsimp only
      cases c.loader.hit v.record.sourceSha256 now with
      | none => exact hasSha_of_findUsable hv
      | some r => exact hasSha_of_findUsable hv
  | fetching v =>
    rw [LoadCall.resume]
    cases d.getClassSource name version with
    | none => trivial
    | some source => exact h
  | evaluating v source n =>
    rw [LoadCall.resume]
    cases evaluate n source with
    | error e => trivial
    | ok ctor => exact h

/-- **What a call does to the cache**: nothing, or an entry is used, or one is put. -/
theorem LoadCall.resume_loader (ho : call.resume evaluate d name version now c = o) :
    o.snd.loader = c.loader
      ∨ (∃ sha e, c.loader.bySha.get sha = some e
        ∧ o.snd.loader = c.loader.setEntry sha { e with lastUsedAt := now })
      ∨ ∃ v source n ctor, call = .evaluating v source n ∧ evaluate n source = .ok ctor
        ∧ o.snd.loader = c.loader.cachePut v.record.sourceSha256 ctor now := by
  subst ho
  cases call with
  | listing =>
    rw [LoadCall.resume]
    cases ClassLoader.findUsable (d.listClassVersions name) name version now with
    | error e => exact .inl rfl
    | ok v =>
      dsimp only
      cases hl : c.loader.hit v.record.sourceSha256 now with
      | none => exact .inl rfl
      | some r =>
        obtain ⟨e, he, -, hle⟩ := ClassLoader.hit_eq_some.mp hl
        exact .inr (.inl ⟨_, e, he, hle.symm⟩)
  | fetching v =>
    rw [LoadCall.resume]
    cases d.getClassSource name version <;> exact .inl rfl
  | evaluating v source n =>
    rw [LoadCall.resume]
    cases he : evaluate n source with
    | error e => exact .inl rfl
    | ok ctor => exact .inr (.inr ⟨v, source, n, ctor, rfl, he, rfl⟩)

end Loads

/-! ## Steps keep the counts

A step of one host changes the number of those that run an entry by one at
most, and the count with it. -/

/-- What a host runs is what it would release, and it knows the hash of its version. -/
def LoaderHost.Ok (d : ClassDriver) (h : LoaderHost) : Prop :=
  match h.phase with
  | .inactive => h.runningSha = none
  | .loading version call => h.runningSha = none ∧ call.Knows d h.className version
  | .hashing version sha => h.runningSha = none ∧ d.HasSha h.className version sha
  | .starting sha | .live sha | .stopping sha => h.runningSha = sha

namespace LoaderRefs

variable {R : RegistryDriver} {C : Type} {evaluate : ℕ → List UInt8 → Except (List String) C}
  {s s' : LoaderRefs R C} {now : ℤ} {n : ℕ} {h h' : LoaderHost}

/-- **What holds of a loader that is used well**: the counts agree with the
hosts that run, and each host knows of its own version what is true. -/
structure Good (s : LoaderRefs R C) : Prop where
  agrees : s.compiler.loader.Agrees s.running
  hosts : ∀ h ∈ s.hosts, h.Ok (R.driver s.registry)

theorem Good.init {registry : R.State} {maxEntries : ℕ} :
    (init registry maxEntries : LoaderRefs R C).Good where
  agrees := ⟨fun _ _ he => absurd he (by simp [LoaderRefs.init, ClassLoader.new]),
    fun _ hne => absurd rfl hne⟩
  hosts _ hh := absurd hh List.not_mem_nil

/-- A host keeps knowing what it knows, whatever is written to the registry. -/
theorem ok_apply {r : R.State} {op : ClassOp} (hok : h.Ok (R.driver r)) :
    h.Ok (R.driver (R.apply r now op)) := by
  obtain ⟨className, phase, runningSha⟩ := h
  cases phase with
  | loading version call =>
    refine ⟨hok.1, ?_⟩
    cases call with
    | listing => trivial
    | fetching v => exact R.keeps now op hok.2
    | evaluating v source n => exact R.keeps now op hok.2
  | hashing version sha => exact ⟨hok.1, R.keeps now op hok.2⟩
  | inactive => exact hok
  | starting sha => exact hok
  | live sha => exact hok
  | stopping sha => exact hok

/-- **A load** keeps the counts, if it puts no entry of a source that runs. -/
theorem Good.resume {name : ClassName} {version : Version} {call : LoadCall}
    {o : LoadOutcome C × Compiler C} (hg : s.Good) (hputs : s.putsWell evaluate call = true)
    (ho : call.resume evaluate (R.driver s.registry) name version now s.compiler = o) :
    o.snd.loader.Agrees s.running
      ∧ ClassLoader.Keeps s.running s.compiler.loader o.snd.loader := by
  obtain hl | ⟨sha, e, he, hl⟩ | ⟨v, source, n, ctor, rfl, hev, hl⟩ := LoadCall.resume_loader ho
  · rw [hl]
    exact ⟨hg.agrees, .refl⟩
  · rw [hl]
    exact ⟨hg.agrees.setEntry (hg.agrees.refCount sha e he) (fun _ _ => rfl),
      .setEntry he rfl⟩
  · rw [hl]
    unfold putsWell at hputs
    dsimp only at hputs
    rw [hev] at hputs
    exact hg.agrees.cachePut (beq_iff_eq.mp hputs)

/-- A host changes that runs what it ran, and maybe the loader. -/
theorem Good.setHost {c : Compiler C} (hg : s.Good) (hn : s.hosts[n]? = some h)
    (hsource : h'.source = h.source) (hok : h'.Ok (R.driver s.registry))
    (hl : c.loader.Agrees s.running ∧ ClassLoader.Keeps s.running s.compiler.loader c.loader) :
    ({ s with compiler := c }.setHost n h').Good
      ∧ s.Kept ({ s with compiler := c }.setHost n h') := by
  have hrunning : ({ s with compiler := c }.setHost n h').running = s.running := by
    funext sha
    exact Holders.countP_set_of_eq _ hn (by rw [LoaderHost.runs, LoaderHost.runs, hsource])
  refine ⟨⟨?_, fun h₁ hh => ?_⟩, hl.2⟩
  · rw [hrunning]
    exact hl.1
  · obtain hh | rfl := List.mem_or_eq_of_mem_set hh
    · exact hg.hosts h₁ hh
    · exact hok

/-- A host begins to run a source, or ends to. -/
theorem running_setHost (hn : s.hosts[n]? = some h) (h' : LoaderHost) (sha : String)
    (c : Compiler C) :
    ({ s with compiler := c }.setHost n h').running sha + Holders.weight (LoaderHost.runs sha) h
      = s.running sha + Holders.weight (LoaderHost.runs sha) h' :=
  Holders.countP_set _ h' hn

theorem weight_runs {sha : String} {hash : Option String} (hs : h.source = hash) :
    Holders.weight (LoaderHost.runs sha) h = if hash = some sha then 1 else 0 := by
  unfold Holders.weight LoaderHost.runs
  rw [hs]
  simp

/-- The host lets go of what it runs, or has begun to run it; the loader is told. -/
theorem Good.setHost_of_agrees {c : Compiler C} (hg : s.Good)
    (hok : h'.Ok (R.driver s.registry))
    (hl : c.loader.Agrees ({ s with compiler := c }.setHost n h').running
      ∧ ClassLoader.Keeps s.running s.compiler.loader c.loader) :
    ({ s with compiler := c }.setHost n h').Good
      ∧ s.Kept ({ s with compiler := c }.setHost n h') := by
  refine ⟨⟨hl.1, fun h₁ hh => ?_⟩, hl.2⟩
  obtain hh | rfl := List.mem_or_eq_of_mem_set hh
  · exact hg.hosts h₁ hh
  · exact hok

/-- **What a host has loaded it acquires.** -/
theorem Good.acquired {version : Version} {sha : String} (hg : s.Good)
    (hn : s.hosts[n]? = some h) (hp : h.phase = .hashing version sha)
    (hsome : (s.compiler.loader.bySha.get sha).isSome = true) :
    (s.acquired n h sha (ClassLoader.lookupRecord
        ((R.driver s.registry).listClassVersions h.className) version)).Good
      ∧ s.Kept (s.acquired n h sha (ClassLoader.lookupRecord
        ((R.driver s.registry).listClassVersions h.className) version)) := by
  have hok := hg.hosts h (List.mem_of_getElem? hn)
  unfold LoaderHost.Ok at hok
  rw [hp] at hok
  obtain ⟨-, v, hv, rfl⟩ := hok
  rw [hv]
  refine hg.setHost_of_agrees rfl ?_
  have hold : h.source = none := by
    unfold LoaderHost.source
    rw [hp]
  have hset := running_setHost hn ⟨h.className, .starting (some v.record.sourceSha256),
    some v.record.sourceSha256⟩
  simp only [weight_runs hold, weight_runs (h := ⟨_, .starting _, _⟩) rfl] at hset
  refine hg.agrees.acquire hsome ?_ (fun sha' hne => ?_)
  · simpa [LoaderHost.source] using hset v.record.sourceSha256 _
  · simpa [LoaderHost.source, Ne.symm hne] using hset sha' _

/-- **What a host runs it releases.** -/
theorem Good.released {hash : Option String} (hg : s.Good) (hn : s.hosts[n]? = some h)
    (hp : h.phase = .stopping hash) : (s.released n h).Good ∧ s.Kept (s.released n h) := by
  have hok := hg.hosts h (List.mem_of_getElem? hn)
  unfold LoaderHost.Ok at hok
  rw [hp] at hok
  dsimp only at hok
  have hold : h.source = hash := by
    unfold LoaderHost.source
    rw [hp]
  unfold LoaderRefs.released
  cases hash with
  | none =>
    rw [hok]
    exact hg.setHost hn hold.symm rfl ⟨hg.agrees, .refl⟩
  | some sha =>
    rw [hok]
    refine hg.setHost_of_agrees rfl ?_
    have hset := running_setHost hn ⟨h.className, .inactive, none⟩
    simp only [weight_runs hold, weight_runs (h := ⟨_, .inactive, _⟩) rfl] at hset
    refine hg.agrees.release ?_ (fun sha' hne => ?_)
    · simpa [LoaderHost.source] using hset sha _
    · simpa [LoaderHost.source, Ne.symm hne] using hset sha' _

/-- **A step of a host** keeps the counts, and the entries that are held. -/
theorem Good.hostStep {act : LoaderAct} (hg : s.Good) (hn : s.hosts[n]? = some h)
    (hG : s.hostUsedWell evaluate h.phase act = true)
    (hs : s.hostStep evaluate now n h h.phase act = some s') : s'.Good ∧ s.Kept s' := by
  have hok := hg.hosts h (List.mem_of_getElem? hn)
  unfold LoaderHost.Ok at hok
  have hsource : h.source = match h.phase with
    | .starting sha | .live sha | .stopping sha => sha
    | .inactive | .loading _ _ | .hashing _ _ => none := rfl
  cases hp : h.phase with
  | inactive =>
    rw [hp] at hs hok hsource
    cases act with
    | activate k sticky =>
      cases sticky with
      | none =>
        obtain rfl := Option.some.inj hs
        exact hg.setHost hn hsource.symm hok ⟨hg.agrees, .refl⟩
      | some version =>
        obtain rfl := Option.some.inj hs
        exact hg.setHost hn hsource.symm ⟨hok, trivial⟩ ⟨hg.agrees, .refl⟩
    | _ => exact absurd hs (by simp [LoaderRefs.hostStep])
  | loading version call =>
    rw [hp] at hs hok hsource hG
    cases act with
    | hostResume k =>
      obtain rfl := Option.some.inj hs
      generalize ho : call.resume evaluate (R.driver s.registry) h.className version now
        s.compiler = o
      have hl := hg.resume hG ho
      have hknows := hok.2.resume ho
      obtain ⟨out, c⟩ := o
      cases out with
      | waits call' => exact hg.setHost hn hsource.symm ⟨hok.1, hknows⟩ hl
      | throws e => exact hg.setHost hn hsource.symm hok.1 hl
      | returns sha ctor => exact hg.setHost hn hsource.symm ⟨hok.1, hknows⟩ hl
    | fail k =>
      obtain rfl := Option.some.inj hs
      exact hg.setHost hn hsource.symm hok.1 ⟨hg.agrees, .refl⟩
    | _ => exact absurd hs (by simp [LoaderRefs.hostStep])
  | hashing version sha =>
    rw [hp] at hs hok hsource hG
    cases act with
    | hashed k =>
      obtain rfl := Option.some.inj hs
      exact hg.acquired hn hp hG
    | fail k =>
      obtain rfl := Option.some.inj hs
      exact hg.setHost hn hsource.symm hok.1 ⟨hg.agrees, .refl⟩
    | _ => exact absurd hs (by simp [LoaderRefs.hostStep])
  | starting sha =>
    rw [hp] at hs hok hsource hG
    cases act with
    | activated k =>
      obtain rfl := Option.some.inj hs
      exact hg.setHost hn hsource.symm hok ⟨hg.agrees, .refl⟩
    | fail k =>
      obtain rfl := Option.some.inj hs
      obtain rfl := beq_iff_eq.mp hG
      exact hg.setHost hn hsource.symm hok ⟨hg.agrees, .refl⟩
    | _ => exact absurd hs (by simp [LoaderRefs.hostStep])
  | live sha =>
    rw [hp] at hs hok hsource
    cases act with
    | deactivate k =>
      obtain rfl := Option.some.inj hs
      exact hg.setHost hn hsource.symm hok ⟨hg.agrees, .refl⟩
    | _ => exact absurd hs (by simp [LoaderRefs.hostStep])
  | stopping sha =>
    rw [hp] at hs hok hsource hG
    cases act with
    | deactivated k =>
      obtain rfl := Option.some.inj hs
      exact hg.released hn hp
    | deactivateFails k =>
      obtain rfl := Option.some.inj hs
      obtain rfl := beq_iff_eq.mp hG
      exact hg.setHost hn hsource.symm hok ⟨hg.agrees, .refl⟩
    | _ => exact absurd hs (by simp [LoaderRefs.hostStep])

/-- **A step** keeps the counts, and the entries that are held. -/
theorem Good.step {x : ℤ × LoaderAct} (hg : s.Good) (hG : s.usedWell evaluate x = true)
    (hs : s.step evaluate x = some s') : s'.Good ∧ s.Kept s' := by
  obtain ⟨now, act⟩ := x
  have hhost : s.hosts[hostOf act]?.all (fun h => s.hostUsedWell evaluate h.phase act) = true →
      s.hosts[hostOf act]?.bind (fun h => s.hostStep evaluate now (hostOf act) h h.phase act)
        = some s' → s'.Good ∧ s.Kept s' := by
    intro hG hs
    obtain ⟨h, hn, hs⟩ := Option.bind_eq_some_iff.mp hs
    rw [hn] at hG
    exact hg.hostStep hn hG hs
  cases act with
  | registry op =>
    obtain rfl := Option.some.inj hs
    exact ⟨⟨hg.agrees, fun h hh => ok_apply (hg.hosts h hh)⟩, ClassLoader.Keeps.refl⟩
  | load name version =>
    obtain rfl := Option.some.inj hs
    exact ⟨⟨hg.agrees, hg.hosts⟩, ClassLoader.Keeps.refl⟩
  | resume i =>
    obtain ⟨⟨name, version, call⟩, hi, rfl⟩ := Option.map_eq_some_iff.mp hs
    have hputs : s.putsWell evaluate call = true := by simpa [usedWell, hi] using hG
    dsimp only
    generalize ho : call.resume evaluate (R.driver s.registry) name version now s.compiler = o
    obtain ⟨hagrees, hkept⟩ := hg.resume hputs ho
    obtain ⟨out, c⟩ := o
    cases out <;> exact ⟨⟨hagrees, hg.hosts⟩, hkept⟩
  | reject i =>
    obtain ⟨c, -, rfl⟩ := Option.map_eq_some_iff.mp hs
    exact ⟨⟨hg.agrees, hg.hosts⟩, ClassLoader.Keeps.refl⟩
  | new className =>
    obtain rfl := Option.some.inj hs
    refine ⟨⟨?_, fun h hh => ?_⟩, ClassLoader.Keeps.refl⟩
    · have hrunning : LoaderRefs.running { s with
          hosts := s.hosts ++ [⟨className, .inactive, none⟩] } = s.running := by
        funext sha
        exact Holders.countP_concat _
      rw [hrunning]
      exact hg.agrees
    · obtain hh | hh := List.mem_append.mp hh
      · exact hg.hosts h hh
      · rw [List.mem_singleton.mp hh]
        rfl
  | activate n sticky => exact hhost hG hs
  | hostResume n => exact hhost hG hs
  | hashed n => exact hhost hG hs
  | activated n => exact hhost hG hs
  | fail n => exact hhost hG hs
  | deactivate n => exact hhost hG hs
  | deactivated n => exact hhost hG hs
  | deactivateFails n => exact hhost hG hs

/-- **The loader's references are counted** after whatever is done with a loader that is
used well, and the next thing that is done with it keeps the entries of the sources that
run. -/
theorem entries_counted {registry : R.State} {maxEntries : ℕ} {xs : List (ℤ × LoaderAct)}
    (hG : TransitionSystem.Along (step evaluate) (fun s x => s.usedWell evaluate x = true)
      (init registry maxEntries) xs)
    (hrun : TransitionSystem.run (step evaluate) (init registry maxEntries) xs = some s) :
    s.Counted ∧ ∀ x s', s.usedWell evaluate x = true → s.step evaluate x = some s' →
      s.Kept s' := by
  have hg : s.Good := TransitionSystem.run_invariant (step evaluate) (P := Good)
    (fun _ _ _ h hG hs => (h.step hG hs).1) .init hG hrun
  exact ⟨⟨hg.agrees.refCount, hg.agrees.entry⟩, fun _ _ hG hs => (hg.step hG hs).2⟩

/-! ### Two carts -/

/-- A cart is published, and two hosts stick to it. -/
def cartHosts : List (ℤ × LoaderAct) :=
  [(0, .registry (.publishClass ⟨"Cart", "1.0.0", [99], [], [], none, none, none⟩)),
    (1, .new "Cart"), (1, .new "Cart"),
    (2, .activate 0 (some "1.0.0")), (2, .hostResume 0), (2, .hostResume 0)]

/-- The first is loaded before the second loads. -/
def oneByOne : List (ℤ × LoaderAct) :=
  cartHosts ++ [(3, .hostResume 0), (3, .hashed 0), (3, .activated 0),
    (4, .activate 1 (some "1.0.0")), (4, .hostResume 1), (4, .hashed 1), (4, .activated 1)]

/-- Both load at once: the second puts its entry when the first has acquired its own. -/
def atOnce : List (ℤ × LoaderAct) :=
  cartHosts ++ [(3, .activate 1 (some "1.0.0")), (3, .hostResume 1), (3, .hostResume 1),
    (4, .hostResume 0), (4, .hashed 0), (4, .hostResume 1), (4, .hashed 1), (4, .activated 0),
    (4, .activated 1)]

/-- A loader over the driver in memory, where nothing is published. -/
def initMemory : LoaderRefs MemoryRegistry.registryDriver Unit := init MemoryRegistry.empty 256

/-- How often the entry of the cart is referred to, and how many hosts run it. -/
def cartCounts (s : LoaderRefs MemoryRegistry.registryDriver Unit) : Option ℕ × ℕ :=
  ((s.compiler.loader.bySha.get (hashBuf [99])).map CacheEntry.refCount,
    s.running (hashBuf [99]))

/-- Where one is loaded after the other, both are counted. -/
theorem entries_counted_oneByOne :
    ∃ s, TransitionSystem.run (step (fun _ _ => .ok ())) initMemory oneByOne = some s
      ∧ cartCounts s = (some 2, 2) ∧ s.Counted := by
  have hrun : (TransitionSystem.run (step (fun _ _ => .ok ())) initMemory oneByOne).any
      (fun s => cartCounts s == (some 2, 2)) = true := by decide
  obtain ⟨s, hs, hc⟩ := (Option.any_eq_true _ _).mp hrun
  exact ⟨s, hs, beq_iff_eq.mp hc, (entries_counted (by decide) hs).1⟩

/-- **Where both load at once**, one is counted. -/
theorem not_entries_counted : ¬∀ (xs : List (ℤ × LoaderAct))
    (s : LoaderRefs MemoryRegistry.registryDriver Unit),
    TransitionSystem.run (step (fun _ _ => .ok ())) initMemory xs = some s → s.Counted := by
  intro h
  have hrun : (TransitionSystem.run (step (fun _ _ => .ok ())) initMemory atOnce).any
      (fun s => cartCounts s == (some 1, 2)) = true := by decide
  obtain ⟨s, hs, hc⟩ := (Option.any_eq_true _ _).mp hrun
  obtain ⟨hone, htwo⟩ := Prod.mk.inj (beq_iff_eq.mp hc)
  obtain ⟨e, he, hone⟩ := Option.map_eq_some_iff.mp hone
  have hcount := (h _ s hs).count _ e he
  rw [hone, htwo] at hcount
  exact absurd hcount (by decide)

end LoaderRefs
