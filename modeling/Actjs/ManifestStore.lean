import Actjs.Hex
import Actjs.ManifestSha

/-!
# Where manifests are kept

The table `manifest` has a row for a hash, which is never written again, and Valkey caches
what was read from it or written to it. The column is of bytes, and a hash comes as a text,
in a header too: `Buffer.from(sha, 'hex')` reads many texts as the same bytes, and each of
them has an entry of its own in the cache.

Any number of calls of `loadManifest` and `saveManifest` are under way, each before one of
its statements, and entries of the cache may go at any time.
-/

open OwnProperties
open Function (update)

/-- A manifest as an object. -/
abbrev ResolvedManifest := OrderedMap ClassName Version

/-- `JSON.parse(JSON.stringify(resolved))`. -/
def reparsed (resolved : ResolvedManifest) : ResolvedManifest := .ofEntries (listed resolved)

/-- The platform under manifests. -/
structure ManifestPlatform where
  /-- `createHash('sha256').update(text).digest()`. -/
  digest : String → List UInt8
  /-- What a `jsonb` column gives back of an object. -/
  jsonb : ResolvedManifest → ResolvedManifest

namespace ManifestPlatform

/-- The hash of a manifest, in bytes, -/
def bytes (p : ManifestPlatform) (m : PublishedManifest) : List UInt8 :=
  p.digest (canonicalText m.map)

/-- and as `digest('hex')` writes it. -/
def sha (p : ManifestPlatform) (m : PublishedManifest) : String :=
  manifestSha256 (fun text => Hex.encode (p.digest text)) m.map

/-- A `jsonb` column keeps the names and the versions, in an order of its own. -/
def Keeps (p : ManifestPlatform) : Prop := ∀ r, (p.jsonb r).entries.Perm r.entries

theorem decode_sha (p : ManifestPlatform) (m : PublishedManifest) :
    Hex.decode (p.sha m) = p.bytes m := Hex.decode_encode _

end ManifestPlatform

/-! ## The tables -/

/-- The table `manifest`, by `sha256`, and the entries `manifestCache` in Valkey, each as
the object that it is the text of. -/
structure ManifestTables where
  manifest : List UInt8 → Option ResolvedManifest
  manifestCache : String → Option ResolvedManifest

/-- The statement that is next in a call of `loadManifest`. -/
inductive ManifestLoadPc where
  /-- `redis.get`. -/
  | get
  /-- The `SELECT`. -/
  | select
  /-- `redis.set`. -/
  | fill (resolved : ResolvedManifest)

/-- The statement that is next in a call of `saveManifest`. -/
inductive ManifestSavePc where
  /-- The `INSERT`. -/
  | insert
  /-- `redis.set`. -/
  | set
deriving DecidableEq

namespace ManifestTables

def empty : ManifestTables := ⟨fun _ => none, fun _ => none⟩

/-- `redis.set`. -/
def cache (t : ManifestTables) (sha : String) (resolved : ResolvedManifest) : ManifestTables :=
  { t with manifestCache := update t.manifestCache sha (some resolved) }

/-- An entry of the cache goes. -/
def evict (t : ManifestTables) (sha : String) : ManifestTables :=
  { t with manifestCache := update t.manifestCache sha none }

/-- `INSERT … ON CONFLICT (sha256) DO NOTHING`. -/
def insert (p : ManifestPlatform) (t : ManifestTables) (sha : String)
    (resolved : ResolvedManifest) : ManifestTables :=
  let bs := Hex.decode sha
  { t with manifest := update t.manifest bs ((t.manifest bs).or (some (p.jsonb resolved))) }

/-- `loadManifest`, statement by statement: the tables, and the statement that is next or
what is returned. -/
def loadManifest (t : ManifestTables) (sha : String) :
    ManifestLoadPc → ManifestTables × (ManifestLoadPc ⊕ Option ResolvedManifest)
  | .get =>
    match t.manifestCache sha with
    | some resolved => (t, .inr (some (reparsed resolved)))
    | none => (t, .inl .select)
  | .select =>
    match t.manifest (Hex.decode sha) with
    | some resolved => (t, .inl (.fill resolved))
    | none => (t, .inr none)
  | .fill resolved => (t.cache sha resolved, .inr (some resolved))

/-- `saveManifest`, statement by statement. -/
def saveManifest (p : ManifestPlatform) (t : ManifestTables) (sha : String)
    (resolved : ResolvedManifest) : ManifestSavePc → ManifestTables × Option ManifestSavePc
  | .insert => (t.insert p sha resolved, some .set)
  | .set => (t.cache sha resolved, none)

end ManifestTables

/-! ## What a hash stands for

A manifest is known by its hash, and the object that is stored says the same
of every name but `__proto__`. -/

/-- **The object is that of the manifests with this hash.** -/
def Stands (p : ManifestPlatform) (bs : List UInt8) (r : ResolvedManifest) : Prop :=
  ∃ m : PublishedManifest, p.bytes m = bs ∧ ∀ name, r.get name = (storedManifest m.map).get name

section Values

variable {p : ManifestPlatform} {m m' : PublishedManifest} {r r' : ResolvedManifest}
  {bs : List UInt8}

theorem listed_perm (obj : ResolvedManifest) : (listed obj).Perm obj.entries := by
  unfold listed
  refine ((List.mergeSort_perm _ _).append_right _).trans ?_
  have hnot : (fun e : ClassName × Version => (arrayIndex e.fst).isNone)
      = fun e => !(arrayIndex e.fst).isSome := by
    funext e
    rw [Option.not_isSome]
  rw [hnot]
  exact List.filter_append_perm _ _

/-- An object that is written as text and read again has the same values. -/
theorem get_reparsed (r : ResolvedManifest) (name : ClassName) :
    (reparsed r).get name = r.get name := by
  have hn : ((listed r).map Prod.fst).Nodup :=
    ((listed_perm r).map Prod.fst).nodup_iff.mpr r.nodup
  refine OrderedMap.perm_iff.mp ?_ name
  rw [reparsed, OrderedMap.entries_ofEntries hn]
  exact listed_perm r

/-- What is stored of a manifest is the manifest, but for `__proto__`. -/
theorem get_storedManifest {name : ClassName} (h : name ≠ "__proto__") :
    (storedManifest m.map).get name = m.map.get name := by
  refine Option.ext (fun v => ?_)
  rw [← Option.mem_def, ← Option.mem_def, Option.mem_def, Option.mem_def,
    ← OrderedMap.mem_entries, ← OrderedMap.mem_entries, storedManifest,
    entries_foldl_assign m.map.nodup, List.mem_filter]
  exact and_iff_left (decide_eq_true h)

/-- `__proto__` is in nothing that is stored. -/
theorem get_storedManifest_proto (m : PublishedManifest) :
    (storedManifest m.map).get "__proto__" = none := by
  refine Option.eq_none_iff_forall_not_mem.mpr (fun v hv => ?_)
  rw [Option.mem_def, ← OrderedMap.mem_entries, storedManifest, entries_foldl_assign m.map.nodup,
    List.mem_filter] at hv
  exact of_decide_eq_true hv.2 rfl

/-- **The text says what is stored.** -/
theorem get_eq_of_canonicalText (h : canonicalText m.map = canonicalText m'.map)
    (name : ClassName) : (storedManifest m.map).get name = (storedManifest m'.map).get name := by
  have hperm : ∀ n : PublishedManifest, (listed ((sortedEntries n.map).foldl assign .empty)).Perm
      (storedManifest n.map).entries := by
    intro n
    rw [listed_foldl_assign sorted_perm, storedManifest, entries_foldl_assign n.map.nodup]
    exact sorted_perm.filter _
  have hes := JsonQuote.renderObject_injective h
  exact OrderedMap.perm_iff.mp ((hperm m).symm.trans (hes ▸ hperm m')) name

/-- What a manifest is stored as stands for its hash, -/
theorem stands_storedManifest (p : ManifestPlatform) (m : PublishedManifest) :
    Stands p (p.bytes m) (storedManifest m.map) := ⟨m, rfl, fun _ => rfl⟩

theorem Stands.congr (h : Stands p bs r) (hr : ∀ name, r'.get name = r.get name) :
    Stands p bs r' :=
  h.imp (fun _ hm => ⟨hm.1, fun name => (hr name).trans (hm.2 name)⟩)

theorem Stands.reparsed (h : Stands p bs r) : Stands p bs (reparsed r) := h.congr (get_reparsed r)

theorem Stands.jsonb (hj : p.Keeps) (h : Stands p bs r) : Stands p bs (p.jsonb r) :=
  h.congr (OrderedMap.perm_iff.mp (hj r))

theorem Stands.get_proto (h : Stands p bs r) : r.get "__proto__" = none := by
  obtain ⟨m, -, hr⟩ := h
  rw [hr, get_storedManifest_proto]

/-- **and whatever stands for it has the versions of the manifest.** -/
theorem Stands.get_eq (hinj : Function.Injective p.digest) (h : Stands p (p.bytes m) r)
    (name : ClassName) : r.get name = (storedManifest m.map).get name := by
  obtain ⟨m', hb, hr⟩ := h
  rw [hr name, get_eq_of_canonicalText (hinj hb) name]

end Values

/-! ## The cache agrees with the table

Rows are never rewritten, so what was read from one stays right, however late
it is cached. -/

namespace ManifestTables

variable {p : ManifestPlatform} {t t' : ManifestTables} {sha : String} {r : ResolvedManifest}

/-- There is a row for what the text is read as. -/
def Known (t : ManifestTables) (sha : String) : Prop := t.manifest (Hex.decode sha) ≠ none

/-- **The tables are coherent**: rows and entries stand for the hash that they
are found under, and what is cached has a row. Several texts are read as one
hash, so an entry need not be that of the row; it stands for the same
manifest. -/
structure Coherent (p : ManifestPlatform) (t : ManifestTables) : Prop where
  row : ∀ bs r, t.manifest bs = some r → Stands p bs r
  cached : ∀ sha r, t.manifestCache sha = some r → t.Known sha ∧ Stands p (Hex.decode sha) r

/-- What a call of `loadManifest` has in hand is good to be cached, -/
def Loading (p : ManifestPlatform) (t : ManifestTables) (sha : String) : ManifestLoadPc → Prop
  | .get => True
  | .select => True
  | .fill resolved => t.Known sha ∧ Stands p (Hex.decode sha) resolved

/-- and what one of `saveManifest` has to be written. -/
structure Saving (p : ManifestPlatform) (t : ManifestTables) (sha : String)
    (resolved : ResolvedManifest) (pc : ManifestSavePc) : Prop where
  stands : Stands p (Hex.decode sha) resolved
  known : pc = .set → t.Known sha

/-- What a statement of `loadManifest` comes to is right: what is returned stands for the
hash, and nothing is found only where there is no row. -/
def Loads (p : ManifestPlatform) (t : ManifestTables) (sha : String) :
    ManifestLoadPc ⊕ Option ResolvedManifest → Prop
  | .inl pc => t.Loading p sha pc
  | .inr (some resolved) => t.Known sha ∧ Stands p (Hex.decode sha) resolved
  | .inr none => ¬t.Known sha

/-- What a statement of `saveManifest` comes to is right. -/
def Saves (p : ManifestPlatform) (t : ManifestTables) (sha : String)
    (resolved : ResolvedManifest) : Option ManifestSavePc → Prop
  | some pc => t.Saving p sha resolved pc
  | none => t.Known sha

/-- **Rows stay as they are.** -/
def Grows (t t' : ManifestTables) : Prop :=
  ∀ bs r, t.manifest bs = some r → t'.manifest bs = some r

theorem Grows.rfl (t : ManifestTables) : Grows t t := fun _ _ h => h

theorem Grows.known (h : Grows t t') (hk : t.Known sha) : t'.Known sha := by
  obtain ⟨r, hr⟩ := Option.ne_none_iff_exists'.mp hk
  rw [Known, h _ r hr]
  exact Option.some_ne_none r

theorem Loading.grows {pc : ManifestLoadPc} (h : t.Loading p sha pc) (hg : Grows t t') :
    t'.Loading p sha pc := by
  cases pc with
  | get => trivial
  | select => trivial
  | fill resolved => exact ⟨hg.known h.1, h.2⟩

theorem Saving.grows {pc : ManifestSavePc} (h : t.Saving p sha r pc) (hg : Grows t t') :
    t'.Saving p sha r pc := ⟨h.stands, fun hpc => hg.known (h.known hpc)⟩

theorem grows_insert (p : ManifestPlatform) (t : ManifestTables) (sha : String)
    (r : ResolvedManifest) : Grows t (t.insert p sha r) := by
  intro bs r' hr
  show update t.manifest _ _ bs = some r'
  by_cases hb : bs = Hex.decode sha
  · subst hb
    rw [Function.update_self, hr, Option.some_or]
  · rw [Function.update_of_ne hb, hr]

theorem known_insert (p : ManifestPlatform) (t : ManifestTables) (sha : String)
    (r : ResolvedManifest) : (t.insert p sha r).Known sha := by
  show update t.manifest _ _ _ ≠ none
  rw [Function.update_self]
  cases t.manifest (Hex.decode sha) <;> simp

theorem grows_loadManifest (t : ManifestTables) (sha : String) (pc : ManifestLoadPc) :
    Grows t (t.loadManifest sha pc).fst := by
  cases pc with
  | get =>
    rw [loadManifest]
    split <;> exact Grows.rfl t
  | select =>
    rw [loadManifest]
    split <;> exact Grows.rfl t
  | fill resolved => exact Grows.rfl t

theorem grows_saveManifest (p : ManifestPlatform) (t : ManifestTables) (sha : String)
    (r : ResolvedManifest) (pc : ManifestSavePc) : Grows t (t.saveManifest p sha r pc).fst := by
  cases pc with
  | insert => exact grows_insert p t sha r
  | set => exact Grows.rfl t

namespace Coherent

theorem empty (p : ManifestPlatform) : Coherent p empty where
  row _ _ h := absurd h (by simp [ManifestTables.empty])
  cached _ _ h := absurd h (by simp [ManifestTables.empty])

theorem cache (h : Coherent p t) (hk : t.Known sha) (hr : Stands p (Hex.decode sha) r) :
    Coherent p (t.cache sha r) where
  row := h.row
  cached sha' r' hc := by
    have hc : update t.manifestCache sha (some r) sha' = some r' := hc
    by_cases he : sha' = sha
    · subst he
      rw [Function.update_self] at hc
      exact Option.some.inj hc ▸ ⟨hk, hr⟩
    · rw [Function.update_of_ne he] at hc
      exact h.cached sha' r' hc

theorem evict (h : Coherent p t) (sha : String) : Coherent p (t.evict sha) where
  row := h.row
  cached sha' r' hc := by
    have hc : update t.manifestCache sha none sha' = some r' := hc
    by_cases he : sha' = sha
    · subst he
      rw [Function.update_self] at hc
      exact absurd hc (by simp)
    · rw [Function.update_of_ne he] at hc
      exact h.cached sha' r' hc

theorem insert (h : Coherent p t) (hj : p.Keeps) (hr : Stands p (Hex.decode sha) r) :
    Coherent p (t.insert p sha r) where
  row bs r' hb := by
    have hb : update t.manifest (Hex.decode sha) _ bs = some r' := hb
    by_cases he : bs = Hex.decode sha
    · subst he
      rw [Function.update_self] at hb
      cases hrow : t.manifest (Hex.decode sha) with
      | none =>
        rw [hrow, Option.none_or] at hb
        exact Option.some.inj hb ▸ hr.jsonb hj
      | some r₀ =>
        rw [hrow, Option.some_or] at hb
        exact Option.some.inj hb ▸ h.row _ _ hrow
    · rw [Function.update_of_ne he] at hb
      exact h.row bs r' hb
  cached sha' r' hc :=
    have hold := h.cached sha' r' hc
    ⟨(grows_insert p t sha r).known hold.1, hold.2⟩

/-- **A statement of `loadManifest`** keeps the tables coherent. -/
theorem loadManifest (h : Coherent p t) {pc : ManifestLoadPc} (hpc : t.Loading p sha pc) :
    Coherent p (t.loadManifest sha pc).fst
      ∧ (t.loadManifest sha pc).fst.Loads p sha (t.loadManifest sha pc).snd := by
  cases pc with
  | get =>
    rw [ManifestTables.loadManifest]
    split
    · next r hr =>
      have hc := h.cached sha r hr
      exact ⟨h, hc.1, hc.2.reparsed⟩
    · exact ⟨h, trivial⟩
  | select =>
    rw [ManifestTables.loadManifest]
    split
    · next r hr =>
      refine ⟨h, ?_, h.row _ r hr⟩
      rw [Known, hr]
      exact Option.some_ne_none r
    · next hr => exact ⟨h, not_not.mpr hr⟩
  | fill resolved => exact ⟨h.cache hpc.1 hpc.2, hpc⟩

/-- **A statement of `saveManifest`** keeps them coherent too. -/
theorem saveManifest (h : Coherent p t) (hj : p.Keeps) {pc : ManifestSavePc}
    (hpc : t.Saving p sha r pc) : Coherent p (t.saveManifest p sha r pc).fst
      ∧ (t.saveManifest p sha r pc).fst.Saves p sha r (t.saveManifest p sha r pc).snd := by
  cases pc with
  | insert => exact ⟨h.insert hj hpc.stands, hpc.stands, fun _ => known_insert p t sha r⟩
  | set => exact ⟨h.cache (hpc.known rfl) hpc.stands, hpc.known rfl⟩

end Coherent

end ManifestTables
