import Actjs.Drivers

/-!
# The cached snapshot

`loadSnapshot` of the ValkeyPg driver answers from Valkey when it can, and
the snapshot it should answer with is the saved one of highest seq that is
not negative, as the memory driver does. `saveSnapshot` writes the cache
whatever the seq – the seq `-1` of `migrateSnapshot` too – three statements
after it has written the table, and a load writes back what it read a
statement ago. The cache is right as long as each of these writes what is
live in the table by then, or another save is still to write it.
-/

open Function (update)
open TransitionSystem

variable {S : Type}

/-! ## The highest saved snapshot

The specification: of what was saved with a seq that is not negative, the last
with the highest seq. -/

/-- A snapshot as it was saved. -/
def SnapshotRead.saved (s : SnapshotRead S) : SnapshotWrite S :=
  ⟨s.seq, s.version, s.state⟩

/-- The live snapshot of a table, as it was saved. -/
def liveSaved (snapshots : List (ℤ × SnapshotRow S)) : Option (SnapshotWrite S) :=
  (bestSnapshot snapshots).map (fun p => ⟨p.fst, p.snd.classVersion, p.snd.state⟩)

/-- **The saved snapshot with the highest non-negative seq**, the last one
saved with it. -/
def HighestSaved (saves : List (SnapshotWrite S)) :
    Option (SnapshotWrite S) → Prop
  | none => ∀ w ∈ saves, w.seq < 0
  | some s => 0 ≤ s.seq ∧ (∀ w ∈ saves, w.seq ≤ s.seq)
      ∧ (saves.filter (fun w => w.seq == s.seq)).getLast? = some s

/-- The rows of a table are the last saves of their seqs. -/
theorem mem_setSnapshots {saves : List (SnapshotWrite S)} {seq : ℤ}
    {row : SnapshotRow S} :
    (seq, row) ∈ saves.foldl setSnapshot []
      ↔ (saves.filter (fun w => w.seq == seq)).getLast?
          = some ⟨seq, row.classVersion, row.state⟩ := by
  induction saves using List.reverseRecOn with
  | nil => simp
  | append_singleton saves w ih =>
    rw [List.foldl_append, List.foldl_cons, List.foldl_nil, setSnapshot,
      List.mem_append, List.mem_filter, ih, List.filter_append, List.mem_singleton]
    obtain ⟨n, version, state⟩ := w
    obtain ⟨classVersion, rowState⟩ := row
    by_cases hw : n = seq
    · subst hw
      simp only [bne_self_eq_false, Bool.false_eq_true, and_false, false_or,
        Prod.mk.injEq, SnapshotRow.mk.injEq, true_and, List.filter_cons,
        beq_self_eq_true, if_true, List.filter_nil, List.getLast?_append,
        List.getLast?_singleton, Option.some_or, Option.some.injEq,
        SnapshotWrite.mk.injEq]
      constructor <;> exact fun h => ⟨h.1.symm, h.2.symm⟩
    · have hne : ¬(seq = n ∧ (⟨classVersion, rowState⟩ : SnapshotRow S)
          = ⟨version, state⟩) := fun h => hw h.1.symm
      simp [hw, Ne.symm hw]

/-- **The live snapshot of the table is the highest saved.** -/
theorem highestSaved (saves : List (SnapshotWrite S)) :
    HighestSaved saves (liveSaved (saves.foldl setSnapshot [])) := by
  -- every seq that was saved has a row
  have hrow : ∀ w ∈ saves, ∃ row,
      (w.seq, row) ∈ saves.foldl setSnapshot [] := by
    intro w hw
    have hmem : w ∈ saves.filter (fun v => v.seq == w.seq) :=
      List.mem_filter.mpr ⟨hw, by simp⟩
    obtain ⟨v, hv⟩ : ∃ v, (saves.filter (fun v => v.seq == w.seq)).getLast?
        = some v :=
      ⟨_, List.getLast?_eq_some_getLast (List.ne_nil_of_mem hmem)⟩
    have hseq : v.seq = w.seq := by
      simpa using (List.mem_filter.mp (List.mem_of_getLast? hv)).2
    refine ⟨⟨v.version, v.state⟩, mem_setSnapshots.mpr ?_⟩
    rw [hv, ← hseq]
  rw [liveSaved]
  cases hbest : bestSnapshot (saves.foldl setSnapshot []) with
  | none =>
    intro w hw
    obtain ⟨row, hrow⟩ := hrow w hw
    exact bestSnapshot_none hbest _ hrow
  | some p =>
    refine ⟨(bestSnapshot_mem hbest).2, fun w hw => ?_,
      mem_setSnapshots.mp (bestSnapshot_mem hbest).1⟩
    obtain ⟨row, hrow⟩ := hrow w hw
    exact bestSnapshot_le hbest _ hrow

/-! ## What the cache holds

Nothing, or what is live in the table, or there is a save in progress that is
still to write it. -/

/-- A save that has written the table and not yet the cache. -/
def PgPc.willCache : PgPc S → Bool
  | saveTouch _ => true
  | saveClass _ => true
  | saveHot _ => true
  | _ => false

/-- A save other than operation `i` is still to write the cache. -/
def Pg.caching (p : Pg S) (i : ℕ) : Bool :=
  p.begun.any (fun j => j != i && ((p.pc j).map PgPc.willCache).getD false)

/-- **What is written to the cache is live**: when a method writes it, or
fails to after it has written the table, the snapshot is the live one of the
table, or another save is still to write the cache. -/
def Pg.Coherent (p : Pg S) : PgAct S → Prop
  | .advance i ok _ =>
    match p.pc i with
    | some (.saveTouch _) => ok = true ∨ p.caching i = true
    | some (.saveClass _) => ok = true ∨ p.caching i = true
    | some (.saveHot s) =>
      ok = true ∧ liveSaved p.snapshots = some s.saved ∨ p.caching i = true
    | some (.fillHot s) =>
      ok = true → liveSaved p.snapshots = some s.saved ∨ p.caching i = true
    | _ => True
  | _ => True

instance [DecidableEq S] (p : Pg S) (a : PgAct S) : Decidable (p.Coherent a) := by
  unfold Pg.Coherent
  rcases a with _ | ⟨i, ok, ts⟩ | _
  case advance =>
    dsimp only
    generalize p.pc i = pc
    rcases pc with _ | pc
    · exact .isTrue trivial
    · cases pc <;> infer_instance
  all_goals exact .isTrue trivial

/-- The cache holds nothing, or the live snapshot. -/
def Pg.Cached (p : Pg S) : Prop :=
  ∀ s, p.hot = some s → liveSaved p.snapshots = some s.saved

/-- The invariant of the cache. -/
structure PgCache (p : Pg S) : Prop where
  begun : ∀ i, p.ops i ≠ none → i ∈ p.begun
  table : p.snapshots = p.saved.foldl setSnapshot []
  cached : (∃ j r pc, p.ops j = some ⟨r, pc⟩ ∧ pc.willCache = true) ∨ p.Cached

theorem PgCache.init : PgCache (.init : Pg S) where
  begun _ h := absurd rfl h
  table := rfl
  cached := .inr (fun _ h => by cases h)

theorem Pg.caching_iff {p : Pg S} {i : ℕ} (h : p.caching i = true) :
    ∃ j r pc, j ≠ i ∧ p.ops j = some ⟨r, pc⟩ ∧ pc.willCache = true := by
  obtain ⟨j, -, hj⟩ := List.any_eq_true.mp h
  rw [Bool.and_eq_true, bne_iff_ne] at hj
  refine ⟨j, ?_⟩
  cases ho : p.ops j with
  | none => simp [Pg.pc, ho] at hj
  | some o => exact ⟨o.request, o.pc, hj.1, rfl, by simpa [Pg.pc, ho] using hj.2⟩

/-- The table is what was saved. -/
theorem Pg.Moves.table {p d : Pg S} {i ts : ℕ} {pc pc' : PgPc S} {ok : Bool}
    (hm : Moves p i pc ok ts d pc')
    (h : p.snapshots = p.saved.foldl setSnapshot []) :
    d.snapshots = d.saved.foldl setSnapshot [] := by
  cases hm with
  | savedRow w =>
    show setSnapshot p.snapshots w = (p.saved ++ [w]).foldl setSnapshot []
    rw [List.foldl_append, ← h]
    rfl
  | _ => exact h

/-- **What a statement leaves in the cache**: it goes on to write it, or it
has not written the table and leaves what is right right. -/
theorem Pg.Moves.cached {p d : Pg S} {i ts : ℕ} {pc pc' : PgPc S} {ok : Bool}
    {r : Request S} (hm : Moves p i pc ok ts d pc')
    (ho : p.ops i = some ⟨r, pc⟩) (hG : p.Coherent (.advance i ok ts)) :
    pc'.willCache = true ∨ p.caching i = true
      ∨ d.Cached ∨ pc.willCache = false ∧ (p.Cached → d.Cached) := by
  simp only [Pg.Coherent, Pg.pc, ho, Option.map_some] at hG
  cases hm with
  | failed _ _ _ =>
    cases pc with
    | saveTouch w => exact .inr (.inl (by simpa using hG))
    | saveClass w => exact .inr (.inl (by simpa using hG))
    | saveHot s => exact .inr (.inl (by simpa using hG))
    | _ => exact .inr (.inr (.inr ⟨rfl, id⟩))
  | deleted _ _ hot hhot =>
    refine .inr (.inr (.inr ⟨rfl, fun h s hs => h s ?_⟩))
    subst hhot
    cases ok with
    | false => exact hs
    | true => cases hs
  | filled s =>
    rcases hG rfl with hlive | hG
    · refine .inr (.inr (.inl (fun t ht => ?_)))
      obtain rfl := Option.some.inj ht
      exact hlive
    · exact .inr (.inl hG)
  | savedRow => exact .inl rfl
  | touched => exact .inl rfl
  | lookedUp => exact .inl rfl
  | savedHot s =>
    rcases hG with ⟨-, hlive⟩ | hG
    · refine .inr (.inr (.inl (fun t ht => ?_)))
      obtain rfl := Option.some.inj ht
      exact hlive
    · exact .inr (.inl hG)
  | _ => exact .inr (.inr (.inr ⟨rfl, id⟩))

/-- **One step keeps the cache.** -/
theorem PgCache.step {p p' : Pg S} {a : PgAct S} (h : PgCache p)
    (hG : p.Coherent a) (hs : p.step a = some p') : PgCache p' := by
  rcases Pg.step_cases hs with ⟨i, r, rfl, hi, rfl⟩
    | ⟨i, ok, ts, r, pc, d, pc', rfl, ho, hm, rfl⟩ | ⟨rfl, rfl⟩
  · refine ⟨fun j hj => ?_, h.table, ?_⟩
    · by_cases hji : j = i
      · exact hji ▸ List.mem_cons_self
      · exact List.mem_cons_of_mem _
          (h.begun j (by simpa [Function.update_of_ne hji] using hj))
    · rcases h.cached with ⟨j, q, pc, hj, hpc⟩ | hc
      · have hji : j ≠ i := by
          rintro rfl
          rw [hi] at hj
          cases hj
        exact .inl ⟨j, q, pc, (Function.update_of_ne hji ..).trans hj, hpc⟩
      · exact .inr hc
  · refine ⟨fun j hj => ?_, hm.table h.table, ?_⟩
    · show j ∈ d.begun
      rw [hm.begun]
      by_cases hji : j = i
      · exact hji ▸ h.begun i (by simp [ho])
      · exact h.begun j (by simpa [Function.update_of_ne hji] using hj)
    · rcases hm.cached ho hG with hpc | hG | hc | ⟨hpc, hc⟩
      · exact .inl ⟨i, r, pc', Function.update_self .., hpc⟩
      · obtain ⟨j, q, pc'', hji, hj, hpc⟩ := Pg.caching_iff hG
        exact .inl ⟨j, q, pc'', (Function.update_of_ne hji ..).trans hj, hpc⟩
      · exact .inr hc
      · rcases h.cached with ⟨j, q, pc'', hj, hpc'⟩ | hp
        · have hji : j ≠ i := by
            rintro rfl
            obtain ⟨rfl, rfl⟩ : r = q ∧ pc = pc'' := by simpa [ho] using hj
            rw [hpc] at hpc'
            cases hpc'
          exact .inl ⟨j, q, pc'', (Function.update_of_ne hji ..).trans hj, hpc'⟩
        · exact .inr (hc hp)
  · exact ⟨h.begun, h.table, h.cached.imp id (fun _ _ hs => by cases hs)⟩

/-! ## A load when nothing is in progress -/

/-- A live snapshot is read under the class of the row. -/
theorem liveSnapshot_saved {actor : Option FencedRow}
    (h : actor.isSome = true) (snapshots : List (ℤ × SnapshotRow S)) :
    (liveSnapshot actor snapshots).map SnapshotRead.saved = liveSaved snapshots := by
  obtain ⟨row, rfl⟩ := Option.isSome_iff_exists.mp h
  unfold liveSnapshot liveSaved
  cases bestSnapshot snapshots <;> rfl

/-- A call of operation `i` that runs alone for `n` statements. -/
def PgAct.alone (i : ℕ) (r : Request S) (n : ℕ) : List (PgAct S) :=
  .start i r :: List.replicate n (.advance i true 0)

/-- **A load that runs alone returns the live snapshot.** -/
theorem Pg.load_alone {p : Pg S} (hp : p.Cached) (hactor : p.actor.isSome = true)
    {i : ℕ} (hi : p.ops i = none) :
    ∃ n s, (run Pg.step p (PgAct.alone i .loadSnapshot n)).bind
        (fun p' => p'.calls i) = some (.loadSnapshot, .snapshot s)
      ∧ s.map SnapshotRead.saved = liveSaved p.snapshots := by
  cases hhot : p.hot with
  | some s =>
    refine ⟨1, some s, ?_, (hp s hhot).symm⟩
    simp [PgAct.alone, Pg.step, Pg.start, Pg.advance, Pg.pc, Pg.setPc,
      Pg.calls, PgPc.first, hi, hhot]
  | none =>
    cases hlive : liveSnapshot p.actor p.snapshots with
    | none =>
      refine ⟨2, none, ?_, by rw [← hlive]; exact liveSnapshot_saved hactor _⟩
      simp [PgAct.alone, Pg.step, Pg.start, Pg.advance, Pg.pc, Pg.setPc,
        Pg.calls, PgPc.first, hi, hhot, hlive]
    | some s =>
      refine ⟨3, some s, ?_, by rw [← hlive]; exact liveSnapshot_saved hactor _⟩
      simp [PgAct.alone, Pg.step, Pg.start, Pg.advance, Pg.pc, Pg.setPc,
        Pg.calls, PgPc.first, hi, hhot, hlive]

/-! ## The memory driver after the same saves -/

/-- The memory driver after an actor was registered and saves were made. -/
def Memory.saving (cls : ClassName) (version : Version)
    (saves : List (SnapshotWrite S)) : Memory S :=
  saves.foldl (fun m w => (m.request 0 (.saveSnapshot w none)).fst)
    (init.request 0 (.registerActor cls version)).fst

theorem Memory.saving_spec (cls : ClassName) (version : Version)
    (saves : List (SnapshotWrite S)) :
    (saving cls version saves).snapshots = saves.foldl setSnapshot []
      ∧ (saving cls version saves).actor.isSome = true := by
  induction saves using List.reverseRecOn with
  | nil => exact ⟨rfl, rfl⟩
  | append_singleton saves w ih =>
    rw [saving, List.foldl_append, ← saving, List.foldl_append, ← ih.1]
    exact ⟨rfl, ih.2⟩

/-- **Snapshot cache coherence.** In every run in which what is written to
the cache is live, once no operation is in progress and the actor is
registered, a load returns the seq, version and state that it returns from
the memory driver after the same saves, and that is the saved snapshot with
the highest non-negative seq. -/
theorem snapshot_cache_coherent (xs : List (PgAct S)) (p : Pg S)
    (hrun : run Pg.step .init xs = some p)
    (hG : Along Pg.step Pg.Coherent .init xs)
    (hidle : p.idle = true) (hactor : p.actor.isSome = true) :
    ∀ i, p.ops i = none → ∃ n s,
      (run Pg.step p (PgAct.alone i .loadSnapshot n)).bind
          (fun p' => p'.calls i) = some (.loadSnapshot, .snapshot s)
        ∧ HighestSaved p.saved (s.map SnapshotRead.saved)
        ∧ ∀ cls version, ∃ t,
          ((Memory.saving cls version p.saved).request i .loadSnapshot).snd
              = .snapshot t
            ∧ t.map SnapshotRead.saved = s.map SnapshotRead.saved := by
  intro i hi
  have h : PgCache p :=
    run_invariant _ (fun _ _ _ h hG hs => h.step hG hs) PgCache.init hG hrun
  have hcached : p.Cached := by
    rcases h.cached with ⟨j, r, pc, hj, hpc⟩ | hc
    · have hmem := List.all_eq_true.mp hidle j (h.begun j (by simp [hj]))
      rw [Pg.pc, hj] at hmem
      cases pc <;> simp [PgPc.willCache, PgPc.inProgress] at hpc hmem
    · exact hc
  obtain ⟨n, s, hrun, hs⟩ := Pg.load_alone hcached hactor hi
  refine ⟨n, s, hrun, ?_, fun cls version => ⟨_, rfl, ?_⟩⟩
  · rw [hs, h.table]
    exact highestSaved p.saved
  · have hm := Memory.saving_spec cls version p.saved
    rw [liveSnapshot_saved hm.2, hm.1, hs, h.table]

/-- A save as operation `i`, up to its last statement but one. -/
def PgAct.saving (i : ℕ) (seq : ℤ) : List (PgAct ℕ) :=
  alone i (.saveSnapshot ⟨seq, "1.0.0", i⟩ none) 3

/-- The theorem applies to two saves, of which the second is begun while the
first is still to write the cache, and a load that reads between them. -/
theorem snapshot_cache_coherent_saved :
    ∃ p : Pg ℕ, run Pg.step .init
        (PgAct.alone 0 (.registerActor "Counter" "1.0.0") 1
          ++ PgAct.saving 1 4 ++ PgAct.alone 2 .loadSnapshot 3
          ++ PgAct.saving 3 5 ++ [.advance 1 true 0, .advance 3 true 0])
        = some p
      ∧ ∃ n s, (run Pg.step p (PgAct.alone 4 .loadSnapshot n)).bind
          (fun p' => p'.calls 4) = some (.loadSnapshot, .snapshot s)
        ∧ HighestSaved p.saved (s.map SnapshotRead.saved) := by
  have hrun : (run Pg.step (.init : Pg ℕ)
      (PgAct.alone 0 (.registerActor "Counter" "1.0.0") 1
        ++ PgAct.saving 1 4 ++ PgAct.alone 2 .loadSnapshot 3
        ++ PgAct.saving 3 5 ++ [.advance 1 true 0, .advance 3 true 0])).any
      (fun p => p.idle && p.actor.isSome && (p.ops 4).isNone) = true := by
    decide
  obtain ⟨p, hp, hr⟩ := (Option.any_eq_true _ _).mp hrun
  simp only [Bool.and_eq_true, Option.isNone_iff_eq_none] at hr
  obtain ⟨⟨hidle, hactor⟩, hi⟩ := hr
  obtain ⟨n, s, hload, hs, -⟩ :=
    snapshot_cache_coherent _ p hp (by decide) hidle hactor 4 hi
  exact ⟨p, hp, n, s, hload, hs⟩

/-- **A snapshot is saved in the retention slot** after one of seq `5`: the
cache has it, and so has the next load. -/
theorem not_snapshot_cache_coherent :
    ¬∀ (xs : List (PgAct ℕ)) (p : Pg ℕ), run Pg.step .init xs = some p →
      p.idle = true → p.actor.isSome = true →
      ∀ i, p.ops i = none → ∃ n s,
        (run Pg.step p (PgAct.alone i .loadSnapshot n)).bind
            (fun p' => p'.calls i) = some (.loadSnapshot, .snapshot s)
          ∧ HighestSaved p.saved (s.map SnapshotRead.saved) := by
  intro h
  have hrun : (run Pg.step (.init : Pg ℕ)
      (PgAct.alone 0 (.registerActor "Counter" "1.0.0") 1
        ++ PgAct.saving 1 5 ++ [.advance 1 true 0]
        ++ PgAct.saving 2 (-1) ++ [.advance 2 true 0])).any
      (fun p => p.idle && p.actor.isSome && (p.ops 3).isNone
        && ((run Pg.step p (PgAct.alone 3 .loadSnapshot 0)).bind
          (fun p' => p'.calls 3)).isNone
        && ((run Pg.step p (PgAct.alone 3 .loadSnapshot 1)).bind
          (fun p' => p'.calls 3)).all
            (fun c => c.snd == .snapshot (some ⟨"Counter", "1.0.0", -1, 2⟩))
        && (run Pg.step p (PgAct.alone 3 .loadSnapshot 2)).isNone) = true := by
    decide
  obtain ⟨p, hp, hr⟩ := (Option.any_eq_true _ _).mp hrun
  simp only [Bool.and_eq_true, Option.isNone_iff_eq_none] at hr
  obtain ⟨⟨⟨⟨⟨hidle, hactor⟩, hi⟩, hnone⟩, hone⟩, htwo⟩ := hr
  obtain ⟨n, s, hload, hs⟩ := h _ p hp hidle hactor 3 hi
  match n with
  | 0 =>
    rw [hnone] at hload
    cases hload
  | 1 =>
    rw [hload, Option.all_some, beq_iff_eq, Answer.snapshot.injEq] at hone
    subst hone
    exact absurd hs.1 (by decide)
  | n + 2 =>
    have hsplit : PgAct.alone 3 (.loadSnapshot : Request ℕ) (n + 2)
        = PgAct.alone 3 .loadSnapshot 2 ++ List.replicate n (.advance 3 true 0) := by
      rw [PgAct.alone, Nat.add_comm, List.replicate_add]
      rfl
    rw [hsplit, run_append, htwo] at hload
    cases hload
