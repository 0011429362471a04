import Actjs.ClassRegistry

/-!
# Loading classes, and pins to them

`ClassLoader` compiles the source of a class version and caches the constructor by
the hash of the source. An entry counts the references of live hosts, and is not
evicted while it has one. The hook for manifest pins looks at the same records of
the registry and says which of the versions a manifest pins have expired.

`load` is here the whole call, which nothing happens during; the parts it consists
of are given by name, for where they are steps.
-/

/-- What the loader and the pin hook ask of a driver. -/
structure ClassDriver where
  listClassVersions : ClassName → List ListedVersion
  getClassSource : ClassName → Version → Option (List UInt8)

/-- The driver in memory. -/
def MemoryRegistry.driver (m : MemoryRegistry) : ClassDriver :=
  ⟨m.listClassVersions, m.getClassSource⟩

/-- The driver over Postgres. -/
def PgRegistry.driver (t : PgRegistry) : ClassDriver :=
  ⟨t.listClassVersions, t.getClassSource⟩

/-! ## The loader

`load` looks up the record of the version, refuses it if it has expired, and
compiles its source if the cache has nothing for the hash. -/

/-- An entry of the cache. -/
structure CacheEntry (C : Type) where
  ctor : C
  lastUsedAt : ℤ
  refCount : ℕ

/-- What `load` throws. -/
inductive LoaderError where
  | classSourceNotFound (name : ClassName) (version : Version)
  | classVersionExpired (name : ClassName) (version : Version) (graceUntil : ℕ)
  | compile (name : ClassName) (version : Version) (diagnostics : List String)

/-- **A `ClassLoader`**, with its cache `bySha`. -/
structure ClassLoader (C : Type) where
  bySha : OrderedMap String (CacheEntry C)
  maxEntries : ℕ

namespace ClassLoader

variable {C : Type}

/-- A loader that has loaded nothing. -/
def new (maxEntries : ℕ) : ClassLoader C := ⟨.empty, maxEntries⟩

/-- Replace an entry. -/
def setEntry (l : ClassLoader C) (sha : String) (e : CacheEntry C) : ClassLoader C :=
  { l with bySha := l.bySha.set sha e }

/-- `acquire`. -/
def acquire (l : ClassLoader C) (sha : String) : ClassLoader C :=
  match l.bySha.get sha with
  | none => l
  | some e => l.setEntry sha { e with refCount := e.refCount + 1 }

/-- `release`. -/
def release (l : ClassLoader C) (sha : String) : ClassLoader C :=
  match l.bySha.get sha with
  | none => l
  | some e => l.setEntry sha { e with refCount := e.refCount - 1 }

/-- The entry that `maybeEvict` finds: the least recently used of those without
references, other than the one just added, and the first of these. -/
def oldest (justAdded : String) :
    List (String × CacheEntry C) → Option (String × CacheEntry C)
  | [] => none
  | e :: es =>
    if 0 < e.snd.refCount ∨ e.fst = justAdded then oldest justAdded es
    else
      match oldest justAdded es with
      | none => some e
      | some e' => if e'.snd.lastUsedAt < e.snd.lastUsedAt then some e' else some e

/-- `maybeEvict`. -/
def maybeEvict (l : ClassLoader C) (justAdded : String) : ClassLoader C :=
  if l.bySha.entries.length ≤ l.maxEntries then l
  else
    match oldest justAdded l.bySha.entries with
    | none => l
    | some e => { l with bySha := l.bySha.delete e.fst }

/-- `cachePut`. -/
def cachePut (l : ClassLoader C) (sha : String) (ctor : C) (now : ℤ) : ClassLoader C :=
  (l.setEntry sha ⟨ctor, now, 0⟩).maybeEvict sha

/-- `lookupRecord`, of the versions that are listed. -/
def lookupRecord (versions : List ListedVersion) (version : Version) :
    Option ListedVersion :=
  versions.find? (fun v => v.version == version)

/-- `load` up to its look into the cache. -/
def findUsable (versions : List ListedVersion) (name : ClassName) (version : Version)
    (now : ℤ) : Except LoaderError ListedVersion :=
  match lookupRecord versions version with
  | none => .error (.classSourceNotFound name version)
  | some v =>
    match v.record.graceUntil with
    | none => .ok v
    | some g => if g ≤ now then .error (.classVersionExpired name version g) else .ok v

/-- A hit: the constructor that is cached, now used. -/
def hit (l : ClassLoader C) (sha : String) (now : ℤ) : Option (C × ClassLoader C) :=
  (l.bySha.get sha).map (fun e => (e.ctor, l.setEntry sha { e with lastUsedAt := now }))

/-- `load` of a version whose record is `v`, from its look into the cache on. -/
def loadAdmitted (compile : List UInt8 → Except (List String) C) (d : ClassDriver)
    (l : ClassLoader C) (name : ClassName) (version : Version) (v : ListedVersion)
    (now : ℤ) : Except LoaderError C × ClassLoader C :=
  match l.hit v.record.sourceSha256 now with
  | some (ctor, l) => (.ok ctor, l)
  | none =>
    match d.getClassSource name version with
    | none => (.error (.classSourceNotFound name version), l)
    | some source =>
      match compile source with
      | .error diagnostics => (.error (.compile name version diagnostics), l)
      | .ok ctor => (.ok ctor, l.cachePut v.record.sourceSha256 ctor now)

/-- **`load`.** The name and the version go into the diagnostics of a compilation
and not into the constructor. -/
def load (compile : List UInt8 → Except (List String) C) (d : ClassDriver)
    (l : ClassLoader C) (name : ClassName) (version : Version) (now : ℤ) :
    Except LoaderError C × ClassLoader C :=
  match findUsable (d.listClassVersions name) name version now with
  | .error e => (.error e, l)
  | .ok v => l.loadAdmitted compile d name version v now

/-- What is admitted is the record of the version. -/
theorem lookup_of_findUsable {versions : List ListedVersion} {name : ClassName}
    {version : Version} {now : ℤ} {v : ListedVersion}
    (h : findUsable versions name version now = .ok v) :
    lookupRecord versions version = some v := by
  unfold findUsable at h
  split at h
  · exact absurd h (by simp)
  · next w hw =>
    have hwv : w = v := by
      split at h
      · exact Except.ok.inj h
      · split at h
        · exact absurd h (by simp)
        · exact Except.ok.inj h
    rw [hw, hwv]

/-- What is admitted has not expired. -/
theorem loadAdmitted_ne {compile : List UInt8 → Except (List String) C}
    {d : ClassDriver} {l : ClassLoader C} {name : ClassName} {version : Version}
    {v : ListedVersion} {now : ℤ} {g : ℕ} :
    (l.loadAdmitted compile d name version v now).fst
      ≠ .error (.classVersionExpired name version g) := by
  unfold loadAdmitted
  split
  · simp
  split
  · simp
  split <;> simp

/-! ### What happens to the cache -/

@[simp] theorem setEntry_maxEntries {l : ClassLoader C} {sha : String} {e : CacheEntry C} :
    (l.setEntry sha e).maxEntries = l.maxEntries := rfl

theorem get_setEntry {l : ClassLoader C} {sha sha' : String} {e : CacheEntry C} :
    (l.setEntry sha e).bySha.get sha'
      = if sha' = sha then some e else l.bySha.get sha' := OrderedMap.get_set

theorem oldest_mem {justAdded : String} {es : List (String × CacheEntry C)}
    {e : String × CacheEntry C} (h : oldest justAdded es = some e) :
    e ∈ es ∧ e.snd.refCount = 0 ∧ e.fst ≠ justAdded := by
  induction es generalizing e with
  | nil => exact absurd h (by simp [oldest])
  | cons x es ih =>
    rw [oldest] at h
    split at h
    · obtain ⟨hm, hrest⟩ := ih h
      exact ⟨List.mem_cons_of_mem _ hm, hrest⟩
    · next hx =>
      have hx : x.snd.refCount = 0 ∧ x.fst ≠ justAdded := by
        rw [not_or] at hx
        exact ⟨Nat.eq_zero_of_not_pos hx.1, hx.2⟩
      split at h
      · obtain rfl := Option.some.inj h
        exact ⟨List.mem_cons_self, hx⟩
      · next e' he' =>
        split at h
        · obtain ⟨hm, hrest⟩ := ih (he'.trans h)
          exact ⟨List.mem_cons_of_mem _ hm, hrest⟩
        · obtain rfl := Option.some.inj h
          exact ⟨List.mem_cons_self, hx⟩

/-- **What is evicted** is an entry without references, and not the one just
added. -/
theorem maybeEvict_cases (l : ClassLoader C) (justAdded : String) :
    l.maybeEvict justAdded = l ∨ ∃ sha e, l.bySha.get sha = some e ∧ e.refCount = 0
      ∧ sha ≠ justAdded
      ∧ l.maybeEvict justAdded = { l with bySha := l.bySha.delete sha } := by
  unfold maybeEvict
  split
  · exact .inl rfl
  split
  · exact .inl rfl
  · next e he =>
    obtain ⟨hm, h0, hne⟩ := oldest_mem he
    exact .inr ⟨e.fst, e.snd, OrderedMap.mem_entries.mp hm, h0, hne, rfl⟩

/-- What is just put is there, without references, -/
theorem get_cachePut_self (l : ClassLoader C) (sha : String) (ctor : C) (now : ℤ) :
    (l.cachePut sha ctor now).bySha.get sha = some ⟨ctor, now, 0⟩ := by
  have hget : (l.setEntry sha ⟨ctor, now, 0⟩).bySha.get sha = some ⟨ctor, now, 0⟩ :=
    OrderedMap.get_set_self
  unfold cachePut
  obtain he | ⟨sha', e, -, -, hne, he⟩ :=
    maybeEvict_cases (l.setEntry sha ⟨ctor, now, 0⟩) sha
  · rw [he, hget]
  · rw [he, OrderedMap.get_delete, if_neg hne.symm, hget]

/-- and what else is there was there before. -/
theorem get_of_get_cachePut {l : ClassLoader C} {sha sha' : String} {ctor : C} {now : ℤ}
    {e : CacheEntry C} (h : (l.cachePut sha ctor now).bySha.get sha' = some e)
    (hne : sha' ≠ sha) : l.bySha.get sha' = some e := by
  have hget : (l.setEntry sha ⟨ctor, now, 0⟩).bySha.get sha' = l.bySha.get sha' :=
    OrderedMap.get_set_ne hne
  unfold cachePut at h
  obtain he | ⟨k, e', -, -, -, he⟩ :=
    maybeEvict_cases (l.setEntry sha ⟨ctor, now, 0⟩) sha
  · rwa [he, hget] at h
  · rw [he, OrderedMap.get_delete, hget] at h
    split at h
    · exact absurd h (by simp)
    · exact h

/-- What has references stays. -/
theorem get_cachePut_of_ref {l : ClassLoader C} {sha sha' : String} {ctor : C} {now : ℤ}
    {e : CacheEntry C} (h : l.bySha.get sha' = some e) (hne : sha' ≠ sha)
    (href : e.refCount ≠ 0) : (l.cachePut sha ctor now).bySha.get sha' = some e := by
  have hget : (l.setEntry sha ⟨ctor, now, 0⟩).bySha.get sha' = some e :=
    (OrderedMap.get_set_ne hne).trans h
  unfold cachePut
  obtain he | ⟨k, e', hk, h0, -, he⟩ :=
    maybeEvict_cases (l.setEntry sha ⟨ctor, now, 0⟩) sha
  · rw [he, hget]
  · rw [he, OrderedMap.get_delete, hget, if_neg]
    rintro rfl
    exact href (Option.some.inj (hget.symm.trans hk) ▸ h0)

theorem hit_eq_some {l l' : ClassLoader C} {sha : String} {now : ℤ} {ctor : C} :
    l.hit sha now = some (ctor, l') ↔ ∃ e, l.bySha.get sha = some e ∧ e.ctor = ctor
      ∧ l.setEntry sha { e with lastUsedAt := now } = l' := by
  simp [hit]

end ClassLoader

/-! ## Loading, one await at a time

`load` awaits the record, the source, and its evaluation; in between other
calls go on, over the same cache. -/

section Calls

variable {C : Type}

/-- Where a call of `load` is: what it awaits. -/
inductive LoadCall where
  /-- `listClassVersions`, in `lookupRecord`. -/
  | listing
  /-- `getClassSource`, of a version whose source is not cached. -/
  | fetching (v : ListedVersion)
  /-- `compileAndEvaluate`, the `n`-th. -/
  | evaluating (v : ListedVersion) (source : List UInt8) (n : ℕ)

/-- A loader, and how often it has compiled. What comes of evaluating a source is
another constructor every time: `evaluate n source`, the `n`-th time. -/
structure Compiler (C : Type) where
  loader : ClassLoader C
  compilations : ℕ

/-- What a call has come to. -/
inductive LoadOutcome (C : Type) where
  | waits (call : LoadCall)
  | throws (e : LoaderError)
  | returns (sha : String) (ctor : C)

/-- **What `load` does when what it awaits is there**, up to where it awaits again. -/
def LoadCall.resume (evaluate : ℕ → List UInt8 → Except (List String) C)
    (d : ClassDriver) (name : ClassName) (version : Version) (now : ℤ) (c : Compiler C) :
    LoadCall → LoadOutcome C × Compiler C
  | .listing =>
    match ClassLoader.findUsable (d.listClassVersions name) name version now with
    | .error e => (.throws e, c)
    | .ok v =>
      match c.loader.hit v.record.sourceSha256 now with
      | some (ctor, l) => (.returns v.record.sourceSha256 ctor, { c with loader := l })
      | none => (.waits (.fetching v), c)
  | .fetching v =>
    match d.getClassSource name version with
    | none => (.throws (.classSourceNotFound name version), c)
    | some source =>
      (.waits (.evaluating v source (c.compilations + 1)),
        { c with compilations := c.compilations + 1 })
  | .evaluating v source n =>
    match evaluate n source with
    | .error diagnostics => (.throws (.compile name version diagnostics), c)
    | .ok ctor =>
      (.returns v.record.sourceSha256 ctor,
        { c with loader := c.loader.cachePut v.record.sourceSha256 ctor now })

section Whole

variable (evaluate : ℕ → List UInt8 → Except (List String) C) (d : ClassDriver)
  (name : ClassName) (version : Version) (now : ℤ)

/-- Resume a call that waits. -/
def LoadOutcome.proceed (o : LoadOutcome C × Compiler C) : LoadOutcome C × Compiler C :=
  match o.fst with
  | .waits call => call.resume evaluate d name version now o.snd
  | .throws _ | .returns _ _ => o

/-- A call that nothing happens during: it awaits three times at most. -/
def LoadOutcome.whole (c : Compiler C) : LoadOutcome C × Compiler C :=
  proceed evaluate d name version now (proceed evaluate d name version now
    (LoadCall.listing.resume evaluate d name version now c))

/-- What a call gives that is over. -/
def LoadOutcome.toExcept : LoadOutcome C → Option (Except LoaderError C)
  | .waits _ => none
  | .throws e => some (.error e)
  | .returns _ ctor => some (.ok ctor)

end Whole

/-- **A call that nothing happens during is `load`.** -/
theorem ClassLoader.load_eq {compile : List UInt8 → Except (List String) C} {d : ClassDriver}
    {name : ClassName} {version : Version} {now : ℤ} {c : Compiler C}
    {o : LoadOutcome C × Compiler C}
    (ho : o = LoadOutcome.whole (fun _ => compile) d name version now c) :
    (o.fst.toExcept, o.snd.loader)
      = (some (c.loader.load compile d name version now).fst,
        (c.loader.load compile d name version now).snd) := by
  subst ho
  unfold load loadAdmitted LoadOutcome.whole LoadOutcome.proceed
  rw [LoadCall.resume]
  cases ClassLoader.findUsable (d.listClassVersions name) name version now with
  | error e => rfl
  | ok v =>
    dsimp only
    cases c.loader.hit v.record.sourceSha256 now with
    | some r => rfl
    | none =>
      unfold LoadCall.resume
      dsimp only
      cases d.getClassSource name version with
      | none => rfl
      | some source =>
        dsimp only
        cases compile source <;> rfl

end Calls

/-! ## Pins

The hook looks at the same record as the loader. Both call a version expired
when its grace time has passed. -/

/-- What `deprecationStatus` says. -/
inductive DeprecationStatus where
  | healthy
  | deprecated
  | expired
deriving DecidableEq

/-- `deprecationStatus`. -/
def deprecationStatus (record : ClassVersionRecord) (nowMs : ℤ) : DeprecationStatus :=
  match record.deprecatedAt with
  | none => .healthy
  | some _ =>
    match record.graceUntil with
    | none => .deprecated
    | some g => if g ≤ nowMs then .expired else .deprecated

/-- The status of a pinned version, if there is a record of it. -/
def ClassDriver.pinStatus (d : ClassDriver) (nowMs : ℤ) (ref : ClassName × Version) :
    Option DeprecationStatus :=
  (ClassLoader.lookupRecord (d.listClassVersions ref.fst) ref.snd).map
    (fun v => deprecationStatus v.record nowMs)

/-- What `classifyPin` returns. -/
structure PinRefs where
  deprecated : List (ClassName × Version)
  expired : List (ClassName × Version)

/-- `classifyPin`. -/
def classifyPin (d : ClassDriver) (resolved : List (ClassName × Version)) (nowMs : ℤ) :
    PinRefs where
  deprecated := resolved.filter (fun ref => d.pinStatus nowMs ref == some .deprecated)
  expired := resolved.filter (fun ref => d.pinStatus nowMs ref == some .expired)

/-- Every version with a grace time is deprecated. -/
def ClassDriver.Marked (d : ClassDriver) : Prop :=
  ∀ name, ∀ v ∈ d.listClassVersions name,
    v.record.graceUntil ≠ none → v.record.deprecatedAt ≠ none

/-- **The loader refuses a version as expired exactly if the pin hook finds it
expired.** -/
theorem expired_iff {C : Type} {compile : List UInt8 → Except (List String) C}
    {d : ClassDriver} (h : d.Marked) (l : ClassLoader C)
    {resolved : List (ClassName × Version)} {name : ClassName} {version : Version}
    {now : ℤ} :
    (name, version) ∈ (classifyPin d resolved now).expired
      ↔ (name, version) ∈ resolved
        ∧ ∃ g, (l.load compile d name version now).fst
          = .error (.classVersionExpired name version g) := by
  show (name, version) ∈ resolved.filter _ ↔ _
  rw [List.mem_filter]
  refine and_congr_right (fun _ => ?_)
  -- both look at the same record, if there is one
  unfold ClassDriver.pinStatus ClassLoader.load ClassLoader.findUsable
  dsimp only
  cases hv : ClassLoader.lookupRecord (d.listClassVersions name) version with
  | none => simp
  | some v =>
    have hm : v ∈ d.listClassVersions name := List.mem_of_find?_eq_some hv
    dsimp only [Option.map_some]
    unfold deprecationStatus
    cases hg : v.record.graceUntil with
    | none =>
      refine iff_of_false ?_ (fun ⟨g, he⟩ => ClassLoader.loadAdmitted_ne he)
      cases v.record.deprecatedAt <;> simp
    | some g =>
      obtain ⟨t, ht⟩ := Option.ne_none_iff_exists'.mp (h name v hm (by simp [hg]))
      dsimp only
      rw [ht]
      by_cases he : (g : ℤ) ≤ now
      · simp [he]
      · rw [if_neg he, if_neg he]
        exact iff_of_false (by simp) (fun ⟨g', he'⟩ => ClassLoader.loadAdmitted_ne he')
