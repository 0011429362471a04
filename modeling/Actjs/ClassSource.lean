import Actjs.RegistryAgreement
import Mathlib.Data.Nat.ModEq

/-!
# Whether a class runs its own source

The memory driver keeps a source by `hashBuf` of its bytes, and the loader caches a
constructor by the same. Read as digits to the base 33, the bytes and the `5381` in
front of them are a number, and the hash is its residue modulo `2 ^ 64`. Where no two
sources that differ have the same residue, every version has the source it was
published with, and a load gives what is made of that source; otherwise the source
published last is that of both.

A version is kept by `name@version`. A name or a version with an `@` gives a key that
is also that of another name and another version.
-/

/-! ## The hash

The bytes of a source and the `5381` in front are the digits of a number to
the base 33, and 64 bits keep its residue. Distinct sources may have one
residue. -/

/-- The number of which `hashBuf` is the residue. -/
def hashNumber (buf : List UInt8) : ℕ :=
  Nat.ofDigits 33 (buf.reverse.map UInt8.toNat ++ [5381])

theorem hashNumber_concat (buf : List UInt8) (b : UInt8) :
    hashNumber (buf ++ [b]) = b.toNat + 33 * hashNumber buf := by
  unfold hashNumber
  rw [List.reverse_append, List.reverse_singleton, List.singleton_append, List.map_cons,
    List.cons_append, Nat.ofDigits_cons]

theorem hashBytes_eq (buf : List UInt8) : hashBytes buf = hashNumber buf % 2 ^ 64 := by
  induction buf using List.reverseRecOn with
  | nil => rfl
  | append_singleton buf b ih =>
    have hstep : hashBytes (buf ++ [b])
        = ((hashBytes buf <<< 5) + hashBytes buf + b.toNat) % 2 ^ 64 := by
      simp [hashBytes]
    rw [hstep, ih, hashNumber_concat, Nat.shiftLeft_eq]
    omega

/-- What the digits of a number are written as says what the number is. -/
theorem hexPadded_injective : Function.Injective hexPadded := by
  intro a b h
  have hchars : ∀ n, (((Nat.digits 16 n).map Nat.digitChar).reverse.leftpad 16 '0')
      = ((Nat.digits 16 n ++ List.replicate (16 - (Nat.digits 16 n).length) 0).map
          Nat.digitChar).reverse := by
    intro n
    simp [List.leftpad, Nat.digitChar]
  have hdigit : ∀ n, ∀ d ∈ Nat.digits 16 n
      ++ List.replicate (16 - (Nat.digits 16 n).length) 0, d < 16 := by
    intro n d hd
    obtain hd | hd := List.mem_append.mp hd
    · exact Nat.digits_lt_base (by omega) hd
    · rw [List.eq_of_mem_replicate hd]
      omega
  have hinj : Set.InjOn Nat.digitChar (Set.Iio 16) := by
    intro c hc d hd hcd
    simp only [Set.mem_Iio] at hc hd
    interval_cases c <;> interval_cases d <;> first | rfl | exact absurd hcd (by decide)
  have hlist := String.ofList_injective h
  rw [hchars, hchars, List.reverse_inj] at hlist
  have hback : ∀ n, ((Nat.digits 16 n
        ++ List.replicate (16 - (Nat.digits 16 n).length) 0).map Nat.digitChar).map
          (Function.invFunOn Nat.digitChar (Set.Iio 16))
      = Nat.digits 16 n ++ List.replicate (16 - (Nat.digits 16 n).length) 0 := by
    intro n
    rw [List.map_map]
    refine (List.map_congr_left (fun d hd => ?_)).trans (List.map_id _)
    exact hinj.leftInvOn_invFunOn (hdigit n d hd)
  have heq := congrArg (List.map (Function.invFunOn Nat.digitChar (Set.Iio 16))) hlist
  rw [hback, hback] at heq
  have hval := congrArg (Nat.ofDigits 16) heq
  rwa [Nat.ofDigits_append_replicate_zero, Nat.ofDigits_append_replicate_zero,
    Nat.ofDigits_digits, Nat.ofDigits_digits] at hval

/-- **Sources with the same hash** are those whose numbers have the same residue. -/
theorem hashBuf_eq_iff {a b : List UInt8} :
    hashBuf a = hashBuf b ↔ hashNumber a ≡ hashNumber b [MOD 2 ^ 64] := by
  rw [hashBuf, hashBuf, hexPadded_injective.eq_iff, hashBytes_eq, hashBytes_eq]
  rfl

/-! ## A driver in memory and a loader over it -/

/-- What the driver and the loader are asked to do, and what becomes of the calls of
`load` that wait. -/
inductive ClassAct where
  | registry (op : ClassOp)
  | load (name : ClassName) (version : Version)
  /-- What the `i`-th call awaits is there, -/
  | resume (i : ℕ)
  /-- or fails. -/
  | reject (i : ℕ)

/-- A driver in memory, a loader over it, the calls of `load` under way, and what
calls have returned. -/
structure MemoryClasses (C : Type) where
  registry : MemoryRegistry
  compiler : Compiler C
  calls : List (ClassName × Version × LoadCall)
  loaded : List (ClassName × Version × C)

/-- The key of what is published. -/
def PublishClassInput.key (input : PublishClassInput) : String :=
  MemoryRegistry.key input.name input.version

namespace MemoryClasses

variable {C : Type} (evaluate : ℕ → List UInt8 → Except (List String) C)

def init (maxEntries : ℕ) : MemoryClasses C := ⟨.empty, ⟨.new maxEntries, 0⟩, [], []⟩

/-- What a call does that waits no more. -/
def resumed (s : MemoryClasses C) (i : ℕ) (name : ClassName) (version : Version) :
    LoadOutcome C × Compiler C → MemoryClasses C
  | (.waits call, c) =>
    { s with compiler := c, calls := s.calls.set i (name, version, call) }
  | (.throws _, c) => { s with compiler := c, calls := s.calls.eraseIdx i }
  | (.returns _ ctor, c) =>
    { s with
      compiler := c
      calls := s.calls.eraseIdx i
      loaded := s.loaded ++ [(name, version, ctor)] }

/-- **A step**, at its time. -/
def step (s : MemoryClasses C) : ℤ × ClassAct → Option (MemoryClasses C)
  | (now, .registry op) =>
    some { s with registry := (s.registry.apply now op).toOption.getD s.registry }
  | (_, .load name version) =>
    some { s with calls := s.calls ++ [(name, version, .listing)] }
  | (now, .resume i) =>
    s.calls[i]?.map (fun (name, version, call) =>
      s.resumed i name version
        (call.resume evaluate s.registry.driver name version now s.compiler))
  | (_, .reject i) => s.calls[i]?.map (fun _ => { s with calls := s.calls.eraseIdx i })

/-- What is published, when one more thing is done: what has the key of an earlier
publication is refused. -/
def accept (inputs : List PublishClassInput) : ℤ × ClassAct → List PublishClassInput
  | (_, .registry (.publishClass input)) =>
    if input.key ∈ inputs.map PublishClassInput.key then inputs else inputs ++ [input]
  | _ => inputs

/-- **What is published.** -/
def accepted (xs : List (ℤ × ClassAct)) : List PublishClassInput := xs.foldl accept []

/-- The constructor is made of the source that was published. -/
def Made (inputs : List PublishClassInput) (name : ClassName) (version : Version)
    (ctor : C) : Prop :=
  ∃ i ∈ inputs, i.name = name ∧ i.version = version ∧ ∃ n, evaluate n i.source = .ok ctor

/-- **The store is faithful**: a version has the source it was published with, and no
other version is there; versions with the same `sourceSha256` have the same source;
and every load has given what is made of the source of its version. -/
structure Faithful (s : MemoryClasses C) (inputs : List PublishClassInput) : Prop where
  source : ∀ name version source, s.registry.getClassSource name version = some source
    ↔ ∃ i ∈ inputs, i.name = name ∧ i.version = version ∧ i.source = source
  sha : ∀ a ∈ inputs, ∀ b ∈ inputs, ∀ va vb,
    s.registry.classVersions.get a.key = some va →
    s.registry.classVersions.get b.key = some vb →
    va.record.sourceSha256 = vb.record.sourceSha256 → a.source = b.source
  loaded : ∀ name version ctor, (name, version, ctor) ∈ s.loaded →
    Made evaluate inputs name version ctor

end MemoryClasses

/-- **What is kept apart**: no name or version has an `@`, and sources that differ do
not have the same residue modulo `2 ^ 64`. -/
structure KeptApart (inputs : List PublishClassInput) : Prop where
  name : ∀ i ∈ inputs, '@' ∉ i.name.toList
  version : ∀ i ∈ inputs, '@' ∉ i.version.toList
  source : ∀ a ∈ inputs, ∀ b ∈ inputs,
    hashNumber a.source ≡ hashNumber b.source [MOD 2 ^ 64] → a.source = b.source

theorem KeptApart.mono {inputs inputs' : List PublishClassInput}
    (h : KeptApart inputs') (hs : inputs ⊆ inputs') : KeptApart inputs where
  name i hi := h.name i (hs hi)
  version i hi := h.version i (hs hi)
  source a ha b hb := h.source a (hs ha) b (hs hb)

/-! ## What the driver keeps

Each published version has a record, and each record a source with its hash:
the one published last with that hash. -/

/-- **The registry keeps what is published**: the records are those of the
publications, and for each of them there is a source with its hash. -/
structure MemoryRegistry.Keeps (m : MemoryRegistry) (inputs : List PublishClassInput) :
    Prop where
  record : ∀ k v, m.classVersions.get k = some v →
    ∃ i ∈ inputs, i.key = k ∧ v.version = i.version
      ∧ v.record.sourceSha256 = hashBuf i.source
  known : ∀ i ∈ inputs, ∃ v, m.classVersions.get i.key = some v
  keys : (inputs.map PublishClassInput.key).Nodup
  blob : ∀ i ∈ inputs, ∃ j ∈ inputs, hashBuf j.source = hashBuf i.source
    ∧ m.classSource (hashBuf i.source) = some j.source

namespace MemoryRegistry.Keeps

variable {m : MemoryRegistry} {inputs : List PublishClassInput} {i j : PublishClassInput}

theorem eq_of_key (h : m.Keeps inputs) (hi : i ∈ inputs) (hj : j ∈ inputs)
    (hk : i.key = j.key) : i = j :=
  List.inj_on_of_nodup_map h.keys hi hj hk

/-- The record of a publication. -/
theorem record_of_mem (h : m.Keeps inputs) (hi : i ∈ inputs) {v : ListedVersion}
    (hv : m.classVersions.get i.key = some v) :
    v.record.sourceSha256 = hashBuf i.source := by
  obtain ⟨j, hj, hk, -, hsha⟩ := h.record i.key v hv
  obtain rfl := h.eq_of_key hj hi hk
  exact hsha

/-- A publication has the source of one with its hash. -/
theorem getClassSource (h : m.Keeps inputs) (hi : i ∈ inputs) {name : ClassName}
    {version : Version} (hk : MemoryRegistry.key name version = i.key) :
    ∃ j ∈ inputs, hashBuf j.source = hashBuf i.source
      ∧ m.getClassSource name version = some j.source := by
  obtain ⟨v, hv⟩ := h.known i hi
  obtain ⟨j, hj, hsha, hblob⟩ := h.blob i hi
  refine ⟨j, hj, hsha, ?_⟩
  unfold MemoryRegistry.getClassSource
  rw [hk, hv]
  dsimp only
  rw [h.record_of_mem hi hv, hblob]

/-- What has a source is a publication. -/
theorem exists_of_getClassSource (h : m.Keeps inputs) {name : ClassName}
    {version : Version} {source : List UInt8}
    (hs : m.getClassSource name version = some source) :
    ∃ i ∈ inputs, i.key = MemoryRegistry.key name version := by
  unfold MemoryRegistry.getClassSource at hs
  split at hs
  · exact absurd hs (by simp)
  · next v hv =>
    obtain ⟨i, hi, hk, -⟩ := h.record _ v hv
    exact ⟨i, hi, hk⟩

/-- A known key is that of a publication. -/
theorem isSome_iff (h : m.Keeps inputs) {k : String} :
    (m.classVersions.get k).isSome = true ↔ k ∈ inputs.map PublishClassInput.key := by
  rw [Option.isSome_iff_exists, List.mem_map]
  constructor
  · rintro ⟨v, hv⟩
    obtain ⟨i, hi, hk, -⟩ := h.record k v hv
    exact ⟨i, hi, hk⟩
  · rintro ⟨i, hi, rfl⟩
    exact h.known i hi

/-- What is listed and has the version is the publication of it. -/
theorem of_lookup (h : m.Keeps inputs) (ha : KeptApart inputs) {name : ClassName}
    {version : Version} {v : ListedVersion}
    (hv : ClassLoader.lookupRecord (m.listClassVersions name) version = some v) :
    ∃ i ∈ inputs, i.name = name ∧ i.version = version
      ∧ v.record.sourceSha256 = hashBuf i.source := by
  obtain ⟨e, he, rfl⟩ := List.mem_map.mp (List.mem_of_find?_eq_some hv)
  obtain ⟨hm, hp⟩ := List.mem_filter.mp he
  obtain ⟨i, hi, hk, hver, hsha⟩ := h.record e.fst e.snd (OrderedMap.mem_entries.mp hm)
  refine ⟨i, hi, ?_, ?_, hsha⟩
  · rw [← hk] at hp
    exact (MemoryRegistry.prefix_key (ha.name i hi) (ha.version i hi)).mp hp
  · have hfound := List.find?_some hv
    rw [beq_iff_eq] at hfound
    exact hver.symm.trans hfound

/-- A publication of a new key is kept, -/
theorem publish {now : ℤ} (h : m.Keeps inputs) (hk : i.key ∉ inputs.map PublishClassInput.key) :
    Keeps
      { classVersions := m.classVersions.set i.key (recordOf now i)
        classSource := Function.update m.classSource (hashBuf i.source) (some i.source) }
      (inputs ++ [i]) where
  record k v hv := by
    rw [OrderedMap.get_set] at hv
    split at hv
    · next hki =>
      obtain rfl := Option.some.inj hv
      exact ⟨i, List.mem_append_right _ List.mem_cons_self, hki.symm, rfl, rfl⟩
    · obtain ⟨j, hj, hrest⟩ := h.record k v hv
      exact ⟨j, List.mem_append_left _ hj, hrest⟩
  known j hj := by
    rw [OrderedMap.get_set]
    split
    · exact ⟨_, rfl⟩
    · next hne =>
      obtain hj | hj := List.mem_append.mp hj
      · exact h.known j hj
      · exact absurd (congrArg _ (List.mem_singleton.mp hj)) hne
  keys := by
    rw [List.map_append]
    exact h.keys.append (List.nodup_singleton _) (by simpa using hk)
  blob j hj := by
    by_cases hsha : hashBuf j.source = hashBuf i.source
    · refine ⟨i, List.mem_append_right _ List.mem_cons_self, hsha.symm, ?_⟩
      rw [hsha]
      dsimp only
      rw [Function.update_self]
    · obtain hj | hj := List.mem_append.mp hj
      · obtain ⟨k, hk, hkj, hblob⟩ := h.blob j hj
        refine ⟨k, List.mem_append_left _ hk, hkj, ?_⟩
        dsimp only
        rw [Function.update_of_ne hsha, hblob]
      · obtain rfl := List.mem_singleton.mp hj
        exact absurd rfl hsha

/-- and a deprecation changes nothing that is kept. -/
theorem deprecation {now : ℤ} {graceUntil : Option ℕ} {k : String} {v : ListedVersion}
    (h : m.Keeps inputs) (hv : m.classVersions.get k = some v) :
    Keeps { m with classVersions := m.classVersions.set k (deprecated now graceUntil v) }
      inputs where
  record l w hw := by
    rw [OrderedMap.get_set] at hw
    split at hw
    · next hl =>
      subst hl
      obtain rfl := Option.some.inj hw
      exact h.record l v hv
    · exact h.record l w hw
  known j hj := by
    rw [OrderedMap.get_set]
    split
    · exact ⟨_, rfl⟩
    · exact h.known j hj
  keys := h.keys
  blob := h.blob

/-- **An operation** keeps the registry as the publications say. -/
theorem apply {now : ℤ} {op : ClassOp} (h : m.Keeps inputs) :
    ((m.apply now op).toOption.getD m).Keeps
      (MemoryClasses.accept inputs (now, .registry op)) := by
  cases op with
  | publishClass input =>
    unfold MemoryRegistry.apply publishClass MemoryClasses.accept
    have hiff : (m.classVersions.get (key input.name input.version)).isSome = true
        ↔ input.key ∈ inputs.map PublishClassInput.key := h.isSome_iff
    dsimp only
    by_cases hk : input.key ∈ inputs.map PublishClassInput.key
    · rw [if_pos hk, if_pos (hiff.mpr hk)]
      exact h
    · rw [if_neg hk, if_neg (mt hiff.mp hk)]
      exact h.publish hk
  | deprecateClassVersion name version graceUntil =>
    unfold MemoryRegistry.apply deprecateClassVersion
    dsimp only
    split
    · exact h
    · next v hv => exact h.deprecation hv

end MemoryRegistry.Keeps

/-! ## What is loaded

A constructor in the cache was made of some source with the hash it is found
under, and where residues tell sources apart that is the source of the
version. -/

namespace MemoryClasses

variable {C : Type} {evaluate : ℕ → List UInt8 → Except (List String) C}
  {inputs inputs' : List PublishClassInput}

/-- A call that waits has the hash, and the source, of the publication. -/
def CallOf (inputs : List PublishClassInput) (name : ClassName) (version : Version) :
    LoadCall → Prop
  | .listing => True
  | .fetching v => ∃ i ∈ inputs, i.name = name ∧ i.version = version
    ∧ v.record.sourceSha256 = hashBuf i.source
  | .evaluating v source _ => ∃ i ∈ inputs, i.name = name ∧ i.version = version
    ∧ v.record.sourceSha256 = hashBuf i.source ∧ source = i.source

/-- What is cached is made of a source with the hash. -/
def Cached (evaluate : ℕ → List UInt8 → Except (List String) C)
    (inputs : List PublishClassInput) (l : ClassLoader C) : Prop :=
  ∀ sha e, l.bySha.get sha = some e →
    ∃ i ∈ inputs, hashBuf i.source = sha ∧ ∃ n, evaluate n i.source = .ok e.ctor

/-- **What holds of the loads**, where what is published is kept apart. -/
structure Loads (evaluate : ℕ → List UInt8 → Except (List String) C)
    (s : MemoryClasses C) (inputs : List PublishClassInput) : Prop where
  call : ∀ name version call, (name, version, call) ∈ s.calls →
    CallOf inputs name version call
  cached : Cached evaluate inputs s.compiler.loader
  made : ∀ name version ctor, (name, version, ctor) ∈ s.loaded →
    Made evaluate inputs name version ctor

theorem Made.mono {name : ClassName} {version : Version} {ctor : C}
    (h : Made evaluate inputs name version ctor) (hs : inputs ⊆ inputs') :
    Made evaluate inputs' name version ctor := by
  obtain ⟨i, hi, hrest⟩ := h
  exact ⟨i, hs hi, hrest⟩

theorem CallOf.mono {name : ClassName} {version : Version} {call : LoadCall}
    (h : CallOf inputs name version call) (hs : inputs ⊆ inputs') :
    CallOf inputs' name version call := by
  cases call with
  | listing => trivial
  | fetching v =>
    obtain ⟨i, hi, hrest⟩ := h
    exact ⟨i, hs hi, hrest⟩
  | evaluating v source n =>
    obtain ⟨i, hi, hrest⟩ := h
    exact ⟨i, hs hi, hrest⟩

theorem Loads.mono {s : MemoryClasses C} (h : s.Loads evaluate inputs)
    (hs : inputs ⊆ inputs') : s.Loads evaluate inputs' where
  call name version call hc := (h.call name version call hc).mono hs
  cached sha e he := by
    obtain ⟨i, hi, hrest⟩ := h.cached sha e he
    exact ⟨i, hs hi, hrest⟩
  made name version ctor hc := (h.made name version ctor hc).mono hs

theorem Cached.setEntry {l : ClassLoader C} {sha : String} {e : CacheEntry C} {now : ℤ}
    (h : Cached evaluate inputs l) (he : l.bySha.get sha = some e) :
    Cached evaluate inputs (l.setEntry sha { e with lastUsedAt := now }) := by
  intro sha' e' he'
  rw [ClassLoader.get_setEntry] at he'
  split at he'
  · next hs =>
    obtain rfl := Option.some.inj he'
    exact hs ▸ h sha e he
  · exact h sha' e' he'

theorem Cached.cachePut {l : ClassLoader C} {i : PublishClassInput} {n : ℕ} {ctor : C}
    {now : ℤ} (h : Cached evaluate inputs l) (hi : i ∈ inputs)
    (he : evaluate n i.source = .ok ctor) :
    Cached evaluate inputs (l.cachePut (hashBuf i.source) ctor now) := by
  intro sha e hs
  by_cases hsha : sha = hashBuf i.source
  · subst hsha
    rw [ClassLoader.get_cachePut_self] at hs
    obtain rfl := Option.some.inj hs
    exact ⟨i, hi, rfl, n, he⟩
  · exact h sha e (ClassLoader.get_of_get_cachePut hs hsha)

/-- **A call** that is resumed keeps to the source of its version. -/
theorem CallOf.resume {m : MemoryRegistry} {name : ClassName} {version : Version}
    {now : ℤ} {c : Compiler C} {call : LoadCall} {o : LoadOutcome C × Compiler C}
    (hm : m.Keeps inputs) (ha : KeptApart inputs)
    (hcached : Cached evaluate inputs c.loader) (hcall : CallOf inputs name version call)
    (ho : call.resume evaluate m.driver name version now c = o) :
    Cached evaluate inputs o.snd.loader
      ∧ match o.fst with
        | .waits call => CallOf inputs name version call
        | .throws _ => True
        | .returns _ ctor => Made evaluate inputs name version ctor := by
  subst ho
  cases call with
  | listing =>
    rw [LoadCall.resume]
    cases hv : ClassLoader.findUsable (m.driver.listClassVersions name) name version now with
    | error e => exact ⟨hcached, trivial⟩
    | ok v =>
      obtain ⟨i, hi, hname, hver, hsha⟩ := hm.of_lookup ha (ClassLoader.lookup_of_findUsable hv)
      dsimp only
      cases hl : c.loader.hit v.record.sourceSha256 now with
      | none => exact ⟨hcached, i, hi, hname, hver, hsha⟩
      | some r =>
        obtain ⟨e, he, hctor, hle⟩ := ClassLoader.hit_eq_some.mp hl
        dsimp only
        rw [← hle, ← hctor]
        refine ⟨hcached.setEntry he, ?_⟩
        -- the entry is made of a source with the same hash, which is this one
        obtain ⟨j, hj, hje, n, hn⟩ := hcached _ e he
        have hji := ha.source j hj i hi (hashBuf_eq_iff.mp (hje.trans hsha))
        exact ⟨i, hi, hname, hver, n, hji ▸ hn⟩
  | fetching v =>
    obtain ⟨i, hi, hname, hver, hsha⟩ := hcall
    rw [LoadCall.resume]
    cases hs : m.driver.getClassSource name version with
    | none => exact ⟨hcached, trivial⟩
    | some source =>
      have hkey : MemoryRegistry.key name version = i.key := by
        rw [PublishClassInput.key, hname, hver]
      obtain ⟨j, hj, hji, hget⟩ := hm.getClassSource hi hkey
      have hsource := Option.some.inj (hs.symm.trans hget)
      rw [ha.source j hj i hi (hashBuf_eq_iff.mp hji)] at hsource
      exact ⟨hcached, i, hi, hname, hver, hsha, hsource⟩
  | evaluating v source n =>
    obtain ⟨i, hi, hname, hver, hsha, rfl⟩ := hcall
    rw [LoadCall.resume]
    cases he : evaluate n i.source with
    | error e => exact ⟨hcached, trivial⟩
    | ok ctor =>
      refine ⟨?_, i, hi, hname, hver, n, he⟩
      dsimp only
      rw [hsha]
      exact hcached.cachePut hi he

theorem subset_accept (x : ℤ × ClassAct) : inputs ⊆ accept inputs x := by
  unfold accept
  split
  · split
    · exact List.Subset.refl _
    · exact List.subset_append_left ..
  · exact List.Subset.refl _

/-- **A step** keeps the loads to the sources of their versions. -/
theorem Loads.step {s s' : MemoryClasses C} {x : ℤ × ClassAct}
    (h : s.Loads evaluate inputs) (hm : s.registry.Keeps inputs) (ha : KeptApart inputs)
    (hs : s.step evaluate x = some s') : s'.Loads evaluate inputs := by
  obtain ⟨now, act⟩ := x
  cases act with
  | registry op =>
    obtain rfl := Option.some.inj hs
    exact ⟨h.call, h.cached, h.made⟩
  | load name version =>
    obtain rfl := Option.some.inj hs
    refine ⟨fun name' version' call hc => ?_, h.cached, h.made⟩
    obtain hc | hc := List.mem_append.mp hc
    · exact h.call _ _ _ hc
    · obtain ⟨rfl, rfl, rfl⟩ : name' = name ∧ version' = version ∧ call = .listing := by
        simpa using hc
      trivial
  | resume i =>
    obtain ⟨⟨name, version, call⟩, hi, rfl⟩ := Option.map_eq_some_iff.mp hs
    have hcall := h.call _ _ _ (List.mem_of_getElem? hi)
    dsimp only
    generalize ho : call.resume evaluate s.registry.driver name version now s.compiler = o
    obtain ⟨hcached, hout⟩ := hcall.resume hm ha h.cached ho
    obtain ⟨out, c⟩ := o
    cases out with
    | waits call' =>
      refine ⟨fun name' version' call'' hc => ?_, hcached, h.made⟩
      obtain hc | hc := List.mem_or_eq_of_mem_set hc
      · exact h.call _ _ _ hc
      · obtain ⟨rfl, rfl, rfl⟩ : name' = name ∧ version' = version ∧ call'' = call' := by
          simpa using hc
        exact hout
    | throws e =>
      exact ⟨fun _ _ _ hc => h.call _ _ _ (List.mem_of_mem_eraseIdx hc), hcached, h.made⟩
    | returns sha ctor =>
      refine ⟨fun _ _ _ hc => h.call _ _ _ (List.mem_of_mem_eraseIdx hc), hcached, ?_⟩
      intro name' version' ctor' hc
      obtain hc | hc := List.mem_append.mp hc
      · exact h.made _ _ _ hc
      · obtain ⟨rfl, rfl, rfl⟩ : name' = name ∧ version' = version ∧ ctor' = ctor := by
          simpa using hc
        exact hout
  | reject i =>
    obtain ⟨c, -, rfl⟩ := Option.map_eq_some_iff.mp hs
    exact ⟨fun _ _ _ hc => h.call _ _ _ (List.mem_of_mem_eraseIdx hc), h.cached, h.made⟩

/-- What holds of a driver and a loader, and what is published. -/
structure Holds (evaluate : ℕ → List UInt8 → Except (List String) C)
    (s : MemoryClasses C) (inputs : List PublishClassInput) : Prop where
  keeps : s.registry.Keeps inputs
  loads : KeptApart inputs → s.Loads evaluate inputs

theorem Holds.init (maxEntries : ℕ) : (init maxEntries).Holds evaluate [] where
  keeps := ⟨fun _ _ h => absurd h (by simp [MemoryClasses.init, MemoryRegistry.empty]),
    fun _ h => absurd h List.not_mem_nil, List.nodup_nil,
    fun _ h => absurd h List.not_mem_nil⟩
  loads _ := ⟨fun _ _ _ h => absurd h List.not_mem_nil,
    fun _ _ h => absurd h (by simp [MemoryClasses.init, ClassLoader.new]),
    fun _ _ _ h => absurd h List.not_mem_nil⟩

theorem Holds.step {s s' : MemoryClasses C} {x : ℤ × ClassAct}
    (h : s.Holds evaluate inputs) (hs : s.step evaluate x = some s') :
    s'.Holds evaluate (accept inputs x) where
  keeps := by
    obtain ⟨now, act⟩ := x
    cases act with
    | registry op =>
      obtain rfl := Option.some.inj hs
      exact h.keeps.apply
    | load name version =>
      obtain rfl := Option.some.inj hs
      exact h.keeps
    | resume i =>
      obtain ⟨⟨name, version, call⟩, -, rfl⟩ := Option.map_eq_some_iff.mp hs
      dsimp only
      unfold resumed
      split <;> exact h.keeps
    | reject i =>
      obtain ⟨c, -, rfl⟩ := Option.map_eq_some_iff.mp hs
      exact h.keeps
  loads ha := by
    have ha' := ha.mono (subset_accept x)
    exact ((h.loads ha').step h.keeps ha' hs).mono (subset_accept x)

/-! ## The store is faithful to what is kept apart -/

/-- Where the store is faithful, a key is of one name and one version. -/
theorem Faithful.eq_of_key {s : MemoryClasses C} {i : PublishClassInput}
    (h : s.Faithful evaluate inputs) (hm : s.registry.Keeps inputs) (hi : i ∈ inputs)
    {name : ClassName} {version : Version}
    (hk : MemoryRegistry.key name version = i.key) : i.name = name ∧ i.version = version := by
  obtain ⟨j, -, -, hget⟩ := hm.getClassSource hi hk
  obtain ⟨l, hl, hname, hver, -⟩ := (h.source name version j.source).mp hget
  have hkl : l.key = i.key := by rw [← hk, PublishClassInput.key, hname, hver]
  obtain rfl := hm.eq_of_key hl hi hkl
  exact ⟨hname, hver⟩

/-- **What a faithful store has been given is kept apart.** -/
theorem Faithful.keptApart {s : MemoryClasses C} (h : s.Faithful evaluate inputs)
    (hm : s.registry.Keeps inputs) : KeptApart inputs where
  name i hi hat := by
    -- the part of the name before the `@` would be a name too
    obtain ⟨a, b, hab⟩ := List.append_of_mem hat
    have hk : MemoryRegistry.key (String.ofList a)
        (String.ofList (b ++ '@' :: i.version.toList)) = i.key := by
      refine String.toList_injective ?_
      rw [PublishClassInput.key, MemoryRegistry.toList_key, MemoryRegistry.toList_key, hab]
      simp
    have hname := congrArg String.toList (h.eq_of_key hm hi hk).1
    rw [hab, String.toList_ofList] at hname
    exact absurd (congrArg List.length hname) (by simp)
  version i hi hat := by
    obtain ⟨a, b, hab⟩ := List.append_of_mem hat
    have hk : MemoryRegistry.key (String.ofList (i.name.toList ++ '@' :: a))
        (String.ofList b) = i.key := by
      refine String.toList_injective ?_
      rw [PublishClassInput.key, MemoryRegistry.toList_key, MemoryRegistry.toList_key, hab]
      simp
    have hname := congrArg String.toList (h.eq_of_key hm hi hk).1
    rw [String.toList_ofList] at hname
    exact absurd (congrArg List.length hname) (by simp)
  source a ha b hb hab := by
    obtain ⟨va, hva⟩ := hm.known a ha
    obtain ⟨vb, hvb⟩ := hm.known b hb
    refine h.sha a ha b hb va vb hva hvb ?_
    rw [hm.record_of_mem ha hva, hm.record_of_mem hb hvb]
    exact hashBuf_eq_iff.mpr hab

/-- **A store is faithful to what is kept apart.** -/
theorem Holds.faithful {s : MemoryClasses C} (h : s.Holds evaluate inputs)
    (ha : KeptApart inputs) : s.Faithful evaluate inputs where
  source name version source := by
    constructor
    · intro hget
      obtain ⟨i, hi, hk⟩ := h.keeps.exists_of_getClassSource hget
      obtain ⟨rfl, rfl⟩ :=
        (MemoryRegistry.key_inj (ha.name i hi) (ha.version i hi)).mp hk.symm
      obtain ⟨j, hj, hji, hj'⟩ := h.keeps.getClassSource hi rfl
      have hsource := Option.some.inj (hget.symm.trans hj')
      rw [ha.source j hj i hi (hashBuf_eq_iff.mp hji)] at hsource
      exact ⟨i, hi, rfl, rfl, hsource.symm⟩
    · rintro ⟨i, hi, rfl, rfl, rfl⟩
      obtain ⟨j, hj, hji, hget⟩ := h.keeps.getClassSource hi rfl
      rw [hget, ha.source j hj i hi (hashBuf_eq_iff.mp hji)]
  sha a haI b hb va vb hva hvb hsha := by
    rw [h.keeps.record_of_mem haI hva, h.keeps.record_of_mem hb hvb] at hsha
    exact ha.source a haI b hb (hashBuf_eq_iff.mp hsha)
  loaded := (h.loads ha).made

theorem holds_of_run {maxEntries : ℕ} {xs : List (ℤ × ClassAct)} {s : MemoryClasses C}
    (hrun : TransitionSystem.run (step evaluate) (init maxEntries) xs = some s) :
    s.Holds evaluate (accepted xs) :=
  TransitionSystem.run_history (step evaluate) (f := accept)
    (fun _ _ _ _ h hs => h.step hs) (.init maxEntries) hrun

/-- **The store is faithful after a run exactly if what was published is kept
apart.** -/
theorem faithful_iff {maxEntries : ℕ} {xs : List (ℤ × ClassAct)} {s : MemoryClasses C}
    (hrun : TransitionSystem.run (step evaluate) (init maxEntries) xs = some s) :
    s.Faithful evaluate (accepted xs) ↔ KeptApart (accepted xs) :=
  ⟨fun h => h.keptApart (holds_of_run hrun).keeps, (holds_of_run hrun).faithful⟩

/-- Two classes are published, and the first is loaded. -/
def published (a b : List UInt8) : List (ℤ × ClassAct) :=
  [(0, .registry (.publishClass ⟨"A", "1.0.0", a, [], [], none, none, none⟩)),
    (1, .registry (.publishClass ⟨"B", "1.0.0", b, [], [], none, none, none⟩)),
    (2, .load "A" "1.0.0"), (3, .resume 0)]

/-- `a` and `b` are kept apart. -/
theorem faithful_iff_published : ∃ s : MemoryClasses Unit,
    TransitionSystem.run (step (fun _ _ => .ok ())) (init 256) (published [97] [98]) = some s
      ∧ s.Faithful (fun _ _ => .ok ()) (accepted (published [97] [98])) := by
  refine ⟨_, rfl, (faithful_iff rfl).mpr ?_⟩
  have h : accepted (published [97] [98])
      = [⟨"A", "1.0.0", [97], [], [], none, none, none⟩,
        ⟨"B", "1.0.0", [98], [], [], none, none, none⟩] := rfl
  rw [h]
  refine ⟨?_, ?_, ?_⟩
  · simp
  · simp
  · simp [hashNumber, Nat.ModEq, Nat.ofDigits]

/-- **`Ab` and `BA` are not**: the source of the one is that of the other. -/
theorem not_faithful : ¬∀ (xs : List (ℤ × ClassAct)) (s : MemoryClasses Unit),
    TransitionSystem.run (step (fun _ _ => .ok ())) (init 256) xs = some s →
      s.Faithful (fun _ _ => .ok ()) (accepted xs) := by
  intro h
  have hrun : TransitionSystem.run (step (fun _ _ => .ok ())) (init 256)
      (published [65, 98] [66, 65]) = some _ := rfl
  have ha := (h _ _ hrun).keptApart (holds_of_run hrun).keeps
  have hsame := ha.source ⟨"A", "1.0.0", [65, 98], [], [], none, none, none⟩ ?_
    ⟨"B", "1.0.0", [66, 65], [], [], none, none, none⟩ ?_ (by decide)
  · exact absurd hsame (by decide)
  · exact List.mem_cons_self
  · exact List.mem_cons_of_mem _ List.mem_cons_self

end MemoryClasses
