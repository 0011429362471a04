import Actjs.Codegen
import Actjs.Transition

/-!
# When a run of the code generator may be skipped

A run is skipped if the cache has the hash of every source and no other. What is
emitted of a class says more: its version, to begin with, which the manifest and its
hash are made of. So a run that is skipped leaves what a forced one would write
exactly as far as the classes are those of which the files on disk were made.
-/

/-- Of what inputs each of the files was made. -/
structure MadeOf where
  dts : Option (List CodegenInput)
  manifestJson : Option (List CodegenInput)
  runtimeJs : Option (List CodegenInput)
  cache : Option (List CodegenInput)

/-- A directory, and of what its files were made. -/
structure CodegenRuns where
  dir : CodegenDir
  made : MadeOf

namespace CodegenRuns

open Codegen

variable (p : CodegenPlatform)

/-- A directory where nothing has been generated. -/
def init : CodegenRuns := ⟨emptyDir, ⟨none, none, none, none⟩⟩

/-- The inputs of which a run writes files, if it comes to that. -/
def writing (d : CodegenDir) (o : CodegenOptions) : Option (List CodegenInput) :=
  o.inputs.filter (fun inputs =>
    !o.check && (o.force || (fresh p d inputs).isNone)
      && (emit p (inputs.map (extractClass p))).isSome)

/-- Of what the files are made when the first `n` of them are written. -/
def rewritten (m : MadeOf) (inputs : List CodegenInput) (n : ℕ) : MadeOf where
  dts := if 0 < n then some inputs else m.dts
  manifestJson := if 1 < n then some inputs else m.manifestJson
  runtimeJs := if 2 < n then some inputs else m.runtimeJs
  cache := if 3 < n then some inputs else m.cache

/-- **A run**, and how many files it gets to write. -/
def step (s : CodegenRuns) (x : CodegenOptions × ℕ) : Option CodegenRuns :=
  some
    { dir := (run p s.dir x.fst x.snd).snd
      made := (writing p s.dir x.fst).elim s.made (fun inputs => rewritten s.made inputs x.snd) }

/-- The classes of the inputs, sorted by name. -/
def classesOf (inputs : List CodegenInput) : List ExtractedClass :=
  Emit.sortClasses (inputs.map (extractClass p))

/-- **Nothing has changed that is emitted**, where the cache is fresh: each of the
files was made of the same classes. -/
def unchanged (s : CodegenRuns) (x : CodegenOptions × ℕ) : Bool :=
  x.fst.inputs.all (fun inputs =>
    x.fst.check || x.fst.force || (fresh p s.dir inputs).isNone
      || [s.made.dts, s.made.manifestJson, s.made.runtimeJs, s.made.cache].all
        (fun m => m.any (fun made => classesOf p made == classesOf p inputs)))

/-- **A run that is skipped** leaves the files, the cache among them, and returns the hash, that
a forced run on the same inputs would. -/
def SkipSound (s : CodegenRuns) (x : CodegenOptions × ℕ) : Prop :=
  ∀ r d, run p s.dir x.fst x.snd = (some r, d) → r.status = .skipped →
    ∃ r' d', run p s.dir { x.fst with force := true, check := false } 4 = (some r', d')
      ∧ r'.status = .wrote ∧ r'.manifestSha = r.manifestSha
      ∧ d'.dts = d.dts ∧ d'.manifestJson = d.manifestJson ∧ d'.runtimeJs = d.runtimeJs
      ∧ d'.cache = d.cache

/-! ## What the files hold

Beside the directory it is recorded of which inputs each file was made, which
nothing on disk says. -/

variable {p} {s s' : CodegenRuns} {x : CodegenOptions × ℕ} {inputs : List CodegenInput}
  {result : CodegenOutput}

/-- What is emitted of the inputs. -/
def Emits (p : CodegenPlatform) (inputs : List CodegenInput) (result : CodegenOutput) : Prop :=
  emit p (inputs.map (extractClass p)) = some result

/-- What is emitted depends on the sorted classes. -/
theorem Emits.of_classesOf {inputs' : List CodegenInput} (h : Emits p inputs result)
    (hc : classesOf p inputs = classesOf p inputs') : Emits p inputs' result := by
  have he : Emit.ofSorted p (classesOf p inputs) = some result := h
  rw [hc] at he
  exact he

theorem Emits.unique {result' : CodegenOutput} (h : Emits p inputs result)
    (h' : Emits p inputs result') : result = result' :=
  Option.some.inj (h.symm.trans h')

/-- **Each file holds** what is emitted of the inputs it was made of. -/
structure Holds (p : CodegenPlatform) (s : CodegenRuns) : Prop where
  dts : ∀ inputs, s.made.dts = some inputs →
    ∃ result, Emits p inputs result ∧ s.dir.dts = (contents result).dts
  manifestJson : ∀ inputs, s.made.manifestJson = some inputs →
    ∃ result, Emits p inputs result ∧ s.dir.manifestJson = (contents result).manifestJson
  runtimeJs : ∀ inputs, s.made.runtimeJs = some inputs →
    ∃ result, Emits p inputs result ∧ s.dir.runtimeJs = (contents result).runtimeJs
  cache : ∀ inputs, s.made.cache = some inputs →
    ∃ result, Emits p inputs result ∧ s.dir.cache = (contents result).cache

theorem Holds.init : Holds p .init where
  dts _ h := absurd h (by simp [CodegenRuns.init])
  manifestJson _ h := absurd h (by simp [CodegenRuns.init])
  runtimeJs _ h := absurd h (by simp [CodegenRuns.init])
  cache _ h := absurd h (by simp [CodegenRuns.init])

/-- A run that writes nothing leaves the directory. -/
theorem run_of_writing_eq_none {d : CodegenDir} {o : CodegenOptions} {n : ℕ}
    (h : writing p d o = none) : (run p d o n).snd = d := by
  unfold run
  cases hi : o.inputs with
  | none => rfl
  | some inputs =>
    rw [writing, hi, Option.filter_eq_none_iff] at h
    have hw := h inputs rfl
    dsimp only
    -- where it generates, it checks or cannot emit
    have hgen : o.check = true ∨ o.force = true ∨ fresh p d inputs = none →
        (generate p d o.check inputs n).snd = d := by
      intro hg
      unfold generate
      dsimp only
      cases he : emit p (inputs.map (extractClass p)) with
      | none => rfl
      | some result =>
        dsimp only
        by_cases hc : o.check = true
        · rw [if_pos hc]
        · refine absurd ?_ hw
          obtain hg | hg | hg := hg
          · exact absurd hg hc
          · simp [hc, hg, he]
          · simp [hc, hg, he]
    split
    · next hcf => exact hgen (hcf.imp_right .inl)
    · cases hf : fresh p d inputs with
      | some cached => rfl
      | none => exact hgen (.inr (.inr hf))

/-- A run that writes files writes what is emitted. -/
theorem run_of_writing {d : CodegenDir} {o : CodegenOptions} {n : ℕ}
    (h : writing p d o = some inputs) :
    ∃ result, Emits p inputs result ∧ (run p d o n).snd = write d (contents result) n := by
  rw [writing, Option.filter_eq_some_iff] at h
  obtain ⟨hi, hw⟩ := h
  rw [Bool.and_eq_true, Bool.and_eq_true, Bool.or_eq_true, Option.isSome_iff_exists] at hw
  obtain ⟨⟨hc, hf⟩, result, he⟩ := hw
  have hc : o.check = false := by simpa using hc
  have hgen : (generate p d o.check inputs n).snd = write d (contents result) n := by
    unfold generate
    dsimp only
    rw [he, hc]
    rfl
  refine ⟨result, he, ?_⟩
  unfold run
  rw [hi]
  dsimp only
  split
  · exact hgen
  · next hcf =>
    rw [not_or] at hcf
    have hfresh : fresh p d inputs = none :=
      Option.isNone_iff_eq_none.mp (hf.resolve_left hcf.2)
    rw [hfresh]
    exact hgen

/-- A file that may have been written holds what is emitted of the inputs it is made
of. -/
theorem Emits.file {α : Type} {out : CodegenOutput → Option α} {old : Option α}
    {made : Option (List CodegenInput)} {k n : ℕ} (he : Emits p inputs result)
    (hold : ∀ i, made = some i → ∃ r, Emits p i r ∧ old = out r) (i : List CodegenInput)
    (hi : (if k < n then some inputs else made) = some i) :
    ∃ r, Emits p i r ∧ (if k < n then out result else old) = out r := by
  split at hi
  · next hk => exact ⟨result, Option.some.inj hi ▸ he, if_pos hk⟩
  · next hk =>
    rw [if_neg hk]
    exact hold i hi

/-- **A run** leaves in each file what is emitted of the inputs it is made of. -/
theorem Holds.step (h : Holds p s) (hs : s.step p x = some s') : Holds p s' := by
  obtain rfl := Option.some.inj hs
  cases hw : writing p s.dir x.fst with
  | none =>
    rw [run_of_writing_eq_none hw]
    exact h
  | some inputs =>
    obtain ⟨result, he, hrun⟩ := run_of_writing (n := x.snd) hw
    rw [hrun]
    exact ⟨he.file h.dts, he.file h.manifestJson, he.file h.runtimeJs, he.file h.cache⟩

/-! ## Skipping

A skipped run leaves what is there; a forced one would write what the inputs
give now. The two are compared file by file. -/

/-- A forced run on inputs of which something is emitted writes all of it. -/
theorem run_forced {d : CodegenDir} {o : CodegenOptions} (hi : o.inputs = some inputs)
    (he : Emits p inputs result) :
    ∃ r, run p d { o with force := true, check := false } 4 = (some r, contents result)
      ∧ r.status = .wrote ∧ r.manifestSha = result.manifestSha := by
  unfold run generate
  dsimp only
  rw [hi]
  dsimp only
  rw [if_pos (.inr rfl)]
  have hemit : emit p (inputs.map (extractClass p)) = some result := he
  rw [hemit]
  exact ⟨_, rfl, rfl, rfl⟩

/-- Nothing is emitted that is skipped. -/
theorem generate_ne_skipped {d d' : CodegenDir} {check : Bool} {n : ℕ} {r : CodegenResult}
    (h : generate p d check inputs n = (some r, d')) : r.status ≠ .skipped := by
  unfold generate at h
  dsimp only at h
  split at h
  · exact absurd (Prod.mk.inj h).1 (by simp)
  split at h
  · rw [← Option.some.inj (Prod.mk.inj h).1]
    dsimp only
    split <;> simp
  · have hr := (Prod.mk.inj h).1
    split at hr
    · exact absurd hr (by simp)
    · rw [← Option.some.inj hr]
      simp

/-- What a skipped run finds. -/
theorem fresh_of_skipped {d d' : CodegenDir} {o : CodegenOptions} {n : ℕ}
    {r : CodegenResult} (h : run p d o n = (some r, d')) (hr : r.status = .skipped) :
    ∃ inputs cached, o.inputs = some inputs ∧ o.check = false ∧ o.force = false
      ∧ fresh p d inputs = some cached ∧ r.manifestSha = cached.manifestSha ∧ d' = d := by
  unfold run at h
  cases hi : o.inputs with
  | none =>
    rw [hi] at h
    exact absurd (Prod.mk.inj h).1 (by simp)
  | some inputs =>
    rw [hi] at h
    dsimp only at h
    split at h
    · exact absurd hr (generate_ne_skipped h)
    · next hcf =>
      rw [not_or, Bool.not_eq_true, Bool.not_eq_true] at hcf
      cases hf : fresh p d inputs with
      | none =>
        rw [hf] at h
        exact absurd hr (generate_ne_skipped h)
      | some cached =>
        rw [hf] at h
        obtain ⟨hr', hd⟩ := Prod.mk.inj h
        refine ⟨inputs, cached, rfl, hcf.1, hcf.2, hf, ?_, hd.symm⟩
        rw [← Option.some.inj hr']

/-- What is emitted of the inputs that a file was made of, if the classes are the
same. -/
theorem emits_of_any {made : Option (List CodegenInput)}
    (h : made.any (fun m => classesOf p m == classesOf p inputs) = true) :
    ∃ m, made = some m ∧ ∀ result, Emits p m result → Emits p inputs result := by
  obtain ⟨m, hm, hc⟩ := (Option.any_eq_true _ _).mp h
  exact ⟨m, hm, fun _ he => he.of_classesOf (beq_iff_eq.mp hc)⟩

/-- **Where nothing has changed that is emitted**, a run may be skipped. -/
theorem Holds.skipSound (h : Holds p s) (hG : unchanged p s x = true) : SkipSound p s x := by
  intro r d hrun hr
  obtain ⟨inputs, cached, hi, hcheck, hforce, hf, hsha, rfl⟩ := fresh_of_skipped hrun hr
  have hall : [s.made.dts, s.made.manifestJson, s.made.runtimeJs, s.made.cache].all
      (fun m => m.any (fun made => classesOf p made == classesOf p inputs)) = true := by
    simpa [unchanged, hi, hcheck, hforce, hf] using hG
  simp only [List.all_cons, List.all_nil, Bool.and_true, Bool.and_eq_true] at hall
  obtain ⟨h₁, h₂, h₃, h₄⟩ := hall
  obtain ⟨m₁, hm₁, he₁⟩ := emits_of_any h₁
  obtain ⟨m₂, hm₂, he₂⟩ := emits_of_any h₂
  obtain ⟨m₃, hm₃, he₃⟩ := emits_of_any h₃
  obtain ⟨m₄, hm₄, he₄⟩ := emits_of_any h₄
  -- each file holds what is emitted of the inputs
  obtain ⟨result, hr₁, hdts⟩ := h.dts m₁ hm₁
  obtain ⟨r₂, hr₂, hjson⟩ := h.manifestJson m₂ hm₂
  obtain ⟨r₃, hr₃, hjs⟩ := h.runtimeJs m₃ hm₃
  obtain ⟨r₄, hr₄, hcache⟩ := h.cache m₄ hm₄
  have he := he₁ result hr₁
  rw [(he₂ r₂ hr₂).unique he] at hjson
  rw [(he₃ r₃ hr₃).unique he] at hjs
  rw [(he₄ r₄ hr₄).unique he] at hcache
  obtain ⟨r', hrun', hwrote, hsha'⟩ := run_forced (d := s.dir) hi he
  refine ⟨r', contents result, hrun', hwrote, ?_, hdts.symm, hjson.symm, hjs.symm,
    hcache.symm⟩
  have hcached : cached = ⟨result.manifestSha, result.perClassSha⟩ := by
    have hsome := (Option.filter_eq_some_iff.mp hf).1
    exact Option.some.inj (hsome.symm.trans hcache)
  rw [hsha', hsha, hcached]

/-- **A run is skipped soundly** where nothing has changed that is emitted. -/
theorem skip_sound {xs : List (CodegenOptions × ℕ)}
    (hG : TransitionSystem.Along (step p) (fun s x => unchanged p s x = true) init xs) :
    TransitionSystem.Along (step p) (SkipSound p) init xs :=
  TransitionSystem.along_invariant (step p) (P := Holds p)
    (fun _ _ _ h _ hs => h.step hs) (fun _ _ h hG => h.skipSound hG) .init hG

/-! ### A cart, twice -/

/-- A platform, of its hash, on which no class is event-sourced. -/
def platform (sha256 : String → String) : CodegenPlatform where
  sha256 := sha256
  syntaxOf := fun _ _ => ⟨false, "unknown", "never", none, none, [], []⟩
  transpileReduceBody := fun _ _ => none
  path := id

/-- The source of a cart, in some version. -/
def cart (version : Version) : List CodegenInput := [⟨"Cart", version, "class Cart \x7b\x7d"⟩]

/-- The manifest of a cart. -/
def cartManifest (version : Version) : PublishedManifest where
  map := manifestFromEntries [("Cart", version)]
  names e he := by
    obtain rfl := List.mem_singleton.mp he
    show isClassName "Cart" = true
    decide

/-- The code of a cart is generated. -/
def generateCart (version : Version) : CodegenOptions × ℕ :=
  (⟨some (cart version), false, false⟩, 4)

/-- What is emitted of a cart. -/
theorem emits_cart (sha256 : String → String) (version : Version) :
    ∃ result, Emits (platform sha256) (cart version) result
      ∧ result.manifestSha = manifestSha256 sha256 (manifestFromEntries [("Cart", version)])
      ∧ result.perClassSha = .ofEntries [("Cart", sha256 "class Cart \x7b\x7d")] := by
  have hsorted : Emit.sortClasses ((cart version).map (extractClass (platform sha256)))
      = (cart version).map (extractClass (platform sha256)) := List.mergeSort_singleton _
  unfold Emits emit
  rw [hsorted]
  exact ⟨_, rfl, rfl, rfl⟩

/-- A cart is written to an empty directory. -/
theorem step_generateCart (sha256 : String → String) (version : Version) :
    ∃ result s, init.step (platform sha256) (generateCart version) = some s
      ∧ s.dir = contents result ∧ s.made = rewritten init.made (cart version) 4
      ∧ result.manifestSha = manifestSha256 sha256 (manifestFromEntries [("Cart", version)])
      ∧ result.perClassSha = .ofEntries [("Cart", sha256 "class Cart \x7b\x7d")] := by
  obtain ⟨result, he, hsha, hclasses⟩ := emits_cart sha256 version
  have hw : writing (platform sha256) emptyDir (generateCart version).fst
      = some (cart version) := by
    have hemit : emit (platform sha256) ((cart version).map (extractClass (platform sha256)))
        = some result := he
    refine Option.filter_eq_some_iff.mpr ⟨rfl, ?_⟩
    rw [hemit]
    rfl
  obtain ⟨result', he', hrun⟩ := run_of_writing (n := 4) hw
  obtain rfl := he'.unique he
  refine ⟨result', _, rfl, hrun, ?_, hsha, hclasses⟩
  exact congrArg (Option.elim · _ _) hw

/-- Where each of the files was made of the inputs, nothing has changed. -/
theorem unchanged_of_made {force check : Bool} {n : ℕ} {m : MadeOf}
    (h : s.made = rewritten m inputs 4) :
    unchanged p s (⟨some inputs, force, check⟩, n) = true := by
  simp [unchanged, h, rewritten]

/-- The second run on a cart is skipped soundly. -/
theorem skip_sound_cart : TransitionSystem.Along (step (platform id)) (SkipSound (platform id))
    init [generateCart "1.0.0", generateCart "1.0.0"] := by
  obtain ⟨result, s, hs, -, hmade, -⟩ := step_generateCart id "1.0.0"
  refine skip_sound ⟨rfl, ?_⟩
  rw [hs]
  refine ⟨unchanged_of_made hmade, ?_⟩
  split <;> trivial

/-- **A new version of the same source is skipped**, and the manifest is that of the old
one. -/
theorem not_skip_sound : ¬∀ (sha256 : String → String), Function.Injective sha256 →
    ∀ xs : List (CodegenOptions × ℕ), TransitionSystem.Along (step (platform sha256))
      (SkipSound (platform sha256)) init xs := by
  intro h
  obtain ⟨result, s, hs, hdir, -, hsha, hclasses⟩ := step_generateCart id "1.0.0"
  obtain ⟨-, hsound⟩ := TransitionSystem.along_cons _
    (h id Function.injective_id [generateCart "1.0.0", generateCart "2.0.0"]) hs
  -- the cache has the hash of the source
  have hfresh : fresh (platform id) s.dir (cart "2.0.0")
      = some ⟨result.manifestSha, result.perClassSha⟩ := by
    rw [hdir]
    refine Option.filter_eq_some_iff.mpr ⟨rfl, ?_⟩
    rw [hclasses]
    rfl
  have hrun : run (platform id) s.dir (generateCart "2.0.0").fst 4
      = (some ⟨.skipped, result.manifestSha, [], none, []⟩, s.dir) := by
    unfold run generateCart
    dsimp only
    rw [if_neg (by simp), hfresh]
  obtain ⟨r', d', hforced, -, hsame, -⟩ := hsound.1 _ _ hrun rfl
  -- a forced run returns the hash of the new manifest
  obtain ⟨new, hnew, hnewSha, -⟩ := emits_cart id "2.0.0"
  obtain ⟨r, hr, -, hrSha⟩ := run_forced (d := s.dir) (o := (generateCart "2.0.0").fst) rfl hnew
  obtain rfl := Option.some.inj (Prod.mk.inj (hforced.symm.trans hr)).1
  rw [hrSha, hnewSha, hsha] at hsame
  have hold : (cartManifest "1.0.0").map.get "__proto__" = none := by decide
  have hnew' : (cartManifest "2.0.0").map.get "__proto__" = none := by decide
  exact absurd ((canonicalText_eq_iff hnew' hold).mp hsame "Cart") (by decide)

end CodegenRuns
