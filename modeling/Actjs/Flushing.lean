import Actjs.Writes

/-!
# What a host leaves to be flushed

A flush writes what `instance.snapshot()` returns, if the host is marked
dirty. Every step does one of three things to that value, `Hands`: it marks
the host, hands the value to the driver, or runs at most a segment of user
code. What the driver is handed is a reference, and `Host.Holds` says when the
object behind it still reads the value. `Proceeds`, `TurnPart` and `Ends` say the
same, and what becomes of the rest of what the flush reads, of the steps of an
activation, a turn and a deactivation.
-/

open Function (update)

variable {S Env Op : Type}

/-- What `instance.snapshot()` returns. -/
def Host.snapshotValue (h : Host S Env) : S :=
  match h.cls.snapshot with
  | none => h.state
  | some f => f h.state

/-- The driver has settled the write. -/
def SavePc.isEnded : SavePc S → Bool
  | ended _ => true
  | _ => false

/-- No snapshot write is in flight. -/
def Host.settled (h : Host S Env) : Bool := h.saves.all (fun sv => sv.pc.isEnded)

/-! ## What a write refers to

The driver is handed an object. As long as it is the state object, or nothing
writes to it any more, it reads what `snapshot()` returns. -/

/-- **What a segment of user code does to the objects**: it changes at most
the one it leaves as the state, which is the state object or a new one. -/
structure Objects.Segment (o o' : Objects S) : Prop where
  next : o.next ≤ o'.next
  val : ∀ i < o.next, i ≠ o'.cur → o'.val i = o.val i
  cur : o'.cur = o.cur ∨ o.next ≤ o'.cur

namespace Objects.Segment

theorem apply (o : Objects S) (c : Change S) : Segment o (o.apply c) := by
  cases c with
  | keep => exact ⟨le_rfl, fun _ _ _ => rfl, .inl rfl⟩
  | mutate x =>
    exact ⟨le_rfl, fun _ _ hi => Function.update_of_ne hi _ _, .inl rfl⟩
  | assign x =>
    exact ⟨Nat.le_succ _, fun _ _ hi => Function.update_of_ne hi _ _, .inr le_rfl⟩

/-- The same of a segment that starts with a new object. -/
theorem assign_apply (o : Objects S) (x : S) (c : Change S) :
    Segment o ((o.assign x).apply c) where
  next := (Nat.le_succ _).trans (apply (o.assign x) c).next
  val i hi hne := by
    rw [(apply (o.assign x) c).val i (Nat.lt_succ_of_lt hi) hne]
    exact Function.update_of_ne hi.ne _ _
  cur := by
    rcases (apply (o.assign x) c).cur with he | he
    · exact .inr (he ▸ le_rfl)
    · exact .inr ((Nat.le_succ _).trans he)

end Objects.Segment

/-- **The object reads what `snapshot()` returns**, and goes on doing so
until that changes. -/
structure Host.Holds (h : Host S Env) (obj : ℕ) : Prop where
  lt : obj < h.objs.next
  val : h.objs.val obj = h.snapshotValue
  own : obj = h.objs.cur → h.cls.snapshot = none

theorem Host.snapshotValue_eq {h h' : Host S Env} (hcls : h'.cls = h.cls)
    (hstate : h'.state = h.state) : h'.snapshotValue = h.snapshotValue := by
  unfold Host.snapshotValue
  rw [hcls, hstate]

/-- The object outlives a segment that leaves the value as it was. -/
theorem Host.Holds.segment {h h' : Host S Env} {obj : ℕ} (ho : h.Holds obj)
    (hs : h.objs.Segment h'.objs) (hcls : h'.cls = h.cls)
    (hv : h'.snapshotValue = h.snapshotValue) : h'.Holds obj := by
  have hcur : obj = h'.objs.cur → obj = h.objs.cur := by
    intro he
    rcases hs.cur with hc | hc
    · exact he.trans hc
    · exact absurd (he ▸ hc) (not_le.mpr ho.lt)
  refine ⟨lt_of_lt_of_le ho.lt hs.next, ?_, fun he => hcls ▸ ho.own (hcur he)⟩
  by_cases he : obj = h'.objs.cur
  · have hsnap : h'.cls.snapshot = none := hcls ▸ ho.own (hcur he)
    unfold Host.snapshotValue
    rw [hsnap, he]
    rfl
  · rw [hs.val obj ho.lt he, ho.val, hv]

/-- A flush leaves the value as it is. -/
theorem Host.snapshotValue_flushSnapshot (h : Host S Env) :
    h.flushSnapshot.snapshotValue = h.snapshotValue :=
  Host.snapshotValue_eq rfl (Host.state_flushSnapshot h)

/-- What a flush hands over is what `snapshot()` returns. -/
theorem Host.holds_flushSnapshot (h : Host S Env) :
    h.flushSnapshot.Holds h.snapshotObj := by
  refine ⟨?_, ?_, fun he => ?_⟩
  · show h.snapshotObj < h.snapshotObjs.next
    unfold Host.snapshotObj Host.snapshotObjs
    cases h.cls.snapshot with
    | none => exact h.objs.cur_lt
    | some f => exact Nat.lt_succ_self _
  · rw [Host.snapshotValue_flushSnapshot]
    show h.snapshotObjs.val h.snapshotObj = h.snapshotValue
    unfold Host.snapshotObj Host.snapshotObjs Host.snapshotValue
    cases h.cls.snapshot with
    | none => rfl
    | some f => exact Function.update_self _ _ _
  · have he : h.snapshotObj = h.snapshotObjs.cur := he
    show h.cls.snapshot = none
    unfold Host.snapshotObj Host.snapshotObjs at he
    cases hf : h.cls.snapshot with
    | none => rfl
    | some f =>
      rw [hf] at he
      exact absurd he h.objs.cur_lt.ne'

/-! ## What a step does to the value

One of three things. Whether the value is saved in the end is a question of
which of them came last. -/

/-- **The value a step leaves to be saved**: the step marks the host, or hands
the value to the driver, or runs at most a segment of user code. -/
inductive Hands (s s' : Sys S Env Op) : Prop
  | marked : s'.host.snapshotDirty = true → s'.host.saves = s.host.saves →
    Hands s s'
  | handed {version : Version} {obj : ℕ} : s'.host.snapshotDirty = false →
    s'.host.saves = s.host.saves
      ++ [⟨if s'.host.cls.isEs then s'.host.currentSeq else 0, version,
        .toEncode obj⟩] →
    s'.host.Holds obj → Hands s s'
  | still : s'.host.snapshotDirty = s.host.snapshotDirty →
    s'.host.saves = s.host.saves → s.host.objs.Segment s'.host.objs →
    s'.host.cls = s.host.cls → Hands s s'

/-- **At most a segment of user code**, which leaves the rest of what the flush
reads alone. -/
structure Ran (s s' : Sys S Env Op) : Prop where
  objs : ∃ c, s'.host.objs = s.host.objs.apply c
  cls : s'.host.cls = s.host.cls
  currentSeq : s'.host.currentSeq = s.host.currentSeq
  snapshotDirty : s'.host.snapshotDirty = s.host.snapshotDirty
  snapshotTimer : s'.host.snapshotTimer = s.host.snapshotTimer
  saves : s'.host.saves = s.host.saves

namespace Ran

variable {s s' t : Sys S Env Op} {env : Env}

/-- A step none of these fields changes in. -/
theorem aside (objs : s'.host.objs = s.host.objs) (cls : s'.host.cls = s.host.cls)
    (currentSeq : s'.host.currentSeq = s.host.currentSeq)
    (snapshotDirty : s'.host.snapshotDirty = s.host.snapshotDirty)
    (snapshotTimer : s'.host.snapshotTimer = s.host.snapshotTimer)
    (saves : s'.host.saves = s.host.saves) : Ran s s' :=
  ⟨⟨.keep, objs⟩, cls, currentSeq, snapshotDirty, snapshotTimer, saves⟩

theorem runSegment {R : Type} (s : Sys S Env Op) (p : Script S R) :
    Ran s (s.runSegment p) := ⟨⟨p.change, rfl⟩, rfl, rfl, rfl, rfl, rfl⟩

theorem beginOnActivate (s : Sys S Env Op) (env : Env) :
    Ran s (s.beginOnActivate env) := by
  unfold Sys.beginOnActivate
  split
  · exact aside rfl rfl rfl rfl rfl rfl
  · exact { runSegment s _ with }

theorem beginReplay (s : Sys S Env Op) (env : Env) :
    Ran s (s.beginReplay env) := by
  unfold Sys.beginReplay
  split
  · exact aside rfl rfl rfl rfl rfl rfl
  · exact beginOnActivate s env

theorem beginOnInit (s : Sys S Env Op) (env : Env) :
    Ran s (s.beginOnInit env) := by
  unfold Sys.beginOnInit
  split
  · exact { beginReplay s.boundary env with }
  · exact { runSegment s _ with }

theorem beginOnDeactivate (s : Sys S Env Op) (env : Env) (idle : Bool) :
    Ran s (s.beginOnDeactivate env idle) := by
  unfold Sys.beginOnDeactivate
  split
  · exact { runSegment s _ with }
  · exact aside rfl rfl rfl rfl rfl rfl

theorem beside (h : Beside s s') : Ran s s' :=
  aside h.objs h.cls h.currentSeq h.snapshotDirty h.snapshotTimer h.saves

theorem hands (h : Ran s s') : Hands s s' := by
  obtain ⟨c, hc⟩ := h.objs
  exact .still h.snapshotDirty h.saves (hc ▸ .apply _ c) h.cls

/-- The same after a new state is installed, and perhaps marked. -/
theorem hands_assign {x : S} (h : Ran t s')
    (ho : t.host.objs = s.host.objs.assign x) (hc : t.host.cls = s.host.cls)
    (hd : t.host.snapshotDirty = s.host.snapshotDirty
      ∨ t.host.snapshotDirty = true)
    (hs : t.host.saves = s.host.saves) : Hands s s' := by
  obtain ⟨c, hobjs⟩ := h.objs
  rcases hd with hd | hd
  · refine .still (h.snapshotDirty.trans hd) (h.saves.trans hs) ?_ (h.cls.trans hc)
    rw [hobjs, ho]
    exact .assign_apply _ x c
  · exact .marked (h.snapshotDirty.trans hd) (h.saves.trans hs)

end Ran

/-- A flush of the host `h` hands the value over. -/
theorem Hands.flush {s s' : Sys S Env Op} (h : Host S Env) {version : Version}
    (hd : s'.host.snapshotDirty = false)
    (hs : s'.host.saves = s.host.saves
      ++ [⟨if s'.host.cls.isEs then s'.host.currentSeq else 0, version,
        .toEncode h.snapshotObj⟩])
    (ho : s'.host.objs = h.snapshotObjs) (hc : s'.host.cls = h.cls) :
    Hands s s' := by
  have hh := h.holds_flushSnapshot
  have hv : s'.host.snapshotValue = h.flushSnapshot.snapshotValue :=
    Host.snapshotValue_eq hc (congrArg Objects.read ho)
  exact .handed hd hs ⟨ho ▸ hh.lt, by rw [ho, hv]; exact hh.val,
    fun he => by rw [hc]; exact hh.own (he.trans (congrArg Objects.cur ho))⟩

/-! ## The steps of an activation -/

/-- The activation has found a row, or written one, and works on the
state. -/
def ActPc.known : ActPc S Env → Bool
  | loadSnapshot => false
  | resolveCtor snap => snap.isSome
  | loadFence snap _ => snap.isSome
  | register => false
  | readInbox => false
  | replayInbox _ => false
  | finishing _ => false
  | _ => true

/-- Storage knows of the actor. -/
def Sys.Known (s : Sys S Env Op) : Prop :=
  s.host.activated = true ∨ s.host.snapshotDirty = true ∨ s.host.saves ≠ []
    ∨ ∃ pc, s.host.activating = some pc ∧ pc.known = true

/-- The snapshot the activation has loaded and not yet used. -/
def Host.loading (h : Host S Env) : Option (SnapshotRead S) :=
  match h.activating with
  | some (.resolveCtor snap) => snap
  | some (.loadFence snap _) => snap
  | _ => none

/-- The activation awaits no write, and has used what it has loaded. -/
def ActPc.plain : ActPc S Env → Bool
  | resolveCtor _ => false
  | loadFence _ _ => false
  | retain _ _ => false
  | migrateFlush _ => false
  | replayFlush _ => false
  | _ => true

/-- The snapshot write that the activation awaits. -/
def Host.awaited (h : Host S Env) : Option ℕ := h.activating.bind ActPc.awaits

theorem Host.awaited_of_plain {h : Host S Env} {pc : ActPc S Env}
    (hpc : h.activating = some pc) (hp : pc.plain = true) : h.awaited = none := by
  unfold Host.awaited
  rw [hpc]
  cases pc <;> simp_all [ActPc.plain, ActPc.awaits]

theorem Host.loading_of_plain {h : Host S Env} {pc : ActPc S Env}
    (hpc : h.activating = some pc) (hp : pc.plain = true) : h.loading = none := by
  unfold Host.loading
  rw [hpc]
  cases pc <;> simp_all [ActPc.plain]

namespace Sys

variable {s s' : Sys S Env Op} {env : Env}

theorem plain_beginOnActivate (s : Sys S Env Op) (env : Env) :
    ∃ pc, (s.beginOnActivate env).host.activating = some pc ∧ pc.plain = true := by
  unfold beginOnActivate
  split <;> exact ⟨_, rfl, rfl⟩

theorem plain_beginReplay (s : Sys S Env Op) (env : Env) :
    ∃ pc, (s.beginReplay env).host.activating = some pc ∧ pc.plain = true := by
  unfold beginReplay
  split
  · exact ⟨_, rfl, rfl⟩
  · exact s.plain_beginOnActivate env

theorem plain_beginOnInit (s : Sys S Env Op) (env : Env) :
    ∃ pc, (s.beginOnInit env).host.activating = some pc ∧ pc.plain = true := by
  unfold beginOnInit
  split
  · exact s.boundary.plain_beginReplay env
  · exact ⟨_, rfl, rfl⟩

/-- What makes storage known has not come about. -/
theorem Known.of_eq (h : s'.Known) (activated : s'.host.activated = s.host.activated)
    (dirty : s'.host.snapshotDirty = s.host.snapshotDirty)
    (saves : s'.host.saves = s.host.saves)
    (hpc : ∀ pc, s'.host.activating = some pc → pc.known = true → s.Known) :
    s.Known := by
  obtain h | h | h | ⟨pc, h, hk⟩ := h
  · exact .inl (activated ▸ h)
  · exact .inr (.inl (dirty ▸ h))
  · exact .inr (.inr (.inl (saves ▸ h)))
  · exact hpc pc h hk

end Sys

/-- The loop of `replayEvents` ends at the seq of a record, or where it
started. -/
theorem Sys.replayLoop_seq {cls : ActorClass S Env} {version : Version}
    {rs : List (ℤ × EventRow)} {acc : Sys.Replayed S} (h : 0 ≤ acc.seq)
    (hrs : ∀ r ∈ rs, 0 ≤ r.fst) : 0 ≤ (Sys.replayLoop cls version acc rs).seq := by
  induction rs generalizing acc with
  | nil => exact h
  | cons r rs ih =>
    obtain ⟨seq, row⟩ := r
    rw [Sys.replayLoop]
    split
    · exact h
    · exact ih (hrs _ List.mem_cons_self)
        (fun r hr => hrs r (List.mem_cons_of_mem _ hr))

/-- The events read have seqs that are not negative. -/
theorem ActorStore.readEvents_nonneg {st : ActorStore S} {n : ℤ} :
    ∀ r ∈ st.readEvents n, 0 ≤ r.fst := by
  intro r hr
  rw [ActorStore.readEvents] at hr
  split at hr
  · exact absurd hr List.not_mem_nil
  · exact (numberedFrom_seq (List.mem_filter.mp hr).1).1.le

/-- **What a segment of an activation does to what the flush reads.** An
activation replaces the state, and awaits each write that it issues; so beside
the value it says what becomes of the write that is awaited. -/
structure Proceeds (s s' : Sys S Env Op) : Prop where
  /-- It constructs the instance, or does one of the usual things. -/
  hands : (∀ snap r, s.host.activating ≠ some (.loadFence snap r)) → Hands s s'
  seq : 0 ≤ s.host.currentSeq →
    (∀ snap, s.host.loading = some snap → 0 ≤ snap.seq) → 0 ≤ s'.host.currentSeq
  timer : s'.host.snapshotTimer = s.host.snapshotTimer
  /-- A write that was awaited has ended, and one that is issued is
  awaited. -/
  ended : ∀ k, s.host.awaited = some k → s.host.saveResult k ≠ none
  awaits : s'.host.saves = s.host.saves ∧ s'.host.awaited = none
    ∨ ∃ sv, sv.pc.isEnded = false ∧ s'.host.saves = s.host.saves ++ [sv]
      ∧ s'.host.awaited = some s.host.saves.length
  loading : ∀ snap, s'.host.loading = some snap →
    s.host.loading = some snap ∨ s.store.loadSnapshot = some snap
  knows : s'.Known → s.Known ∨ s'.store.row ≠ none

namespace Proceeds

variable {cfg : HostConfig S Env Op} {s s' t : Sys S Env Op} {env : Env}
  {pc pc' : ActPc S Env}

/-- A part that issues no write and is through with what it has loaded. -/
theorem plain (hpc : s.host.activating = some pc) (h : Ran t s')
    (hpc' : ∃ pc', s'.host.activating = some pc' ∧ pc'.plain = true)
    (hands : (∀ snap r, s.host.activating ≠ some (.loadFence snap r)) → Hands s s')
    (seq : 0 ≤ s.host.currentSeq →
      (∀ snap, s.host.loading = some snap → 0 ≤ snap.seq) → 0 ≤ t.host.currentSeq)
    (timer : t.host.snapshotTimer = s.host.snapshotTimer)
    (saves : t.host.saves = s.host.saves)
    (ended : ∀ k, s.host.awaited = some k → s.host.saveResult k ≠ none)
    (knows : pc.known = true ∨ s'.store.row ≠ none) : Proceeds s s' := by
  obtain ⟨pc', hpc', hplain⟩ := hpc'
  exact
    { hands
      seq := fun h0 hl => h.currentSeq ▸ seq h0 hl
      timer := h.snapshotTimer.trans timer
      ended
      awaits := .inl ⟨h.saves.trans saves, Host.awaited_of_plain hpc' hplain⟩
      loading := fun snap hl =>
        absurd hl (by rw [Host.loading_of_plain hpc' hplain]; simp)
      knows := fun _ =>
        knows.imp (fun hk => .inr (.inr (.inr ⟨pc, hpc, hk⟩))) id }

/-- Bookkeeping. -/
theorem aside (h : Ran s s') (hpc' : s'.host.activating = some pc')
    (awaits : pc'.awaits = none) (activated : s'.host.activated = s.host.activated)
    (ended : ∀ k, s.host.awaited = some k → s.host.saveResult k ≠ none)
    (loading : ∀ snap, s'.host.loading = some snap →
      s.host.loading = some snap ∨ s.store.loadSnapshot = some snap)
    (knows : pc'.known = true → s.Known ∨ s'.store.row ≠ none) :
    Proceeds s s' where
  hands _ := h.hands
  seq h0 _ := h.currentSeq ▸ h0
  timer := h.snapshotTimer
  ended := ended
  awaits := .inl ⟨h.saves, by
    unfold Host.awaited
    rw [hpc', Option.bind_some, awaits]⟩
  loading := loading
  knows hk := by
    by_cases hpc : pc'.known = true
    · exact knows hpc
    · refine .inl (hk.of_eq activated h.snapshotDirty h.saves (fun pc he hp => ?_))
      obtain rfl := Option.some.inj (hpc'.symm.trans he)
      exact absurd hp hpc

/-- A write is issued, and awaited. -/
theorem issue (hpc : s.host.activating = some pc) {sv : Save S}
    (hands : (∀ snap r, s.host.activating ≠ some (.loadFence snap r)) → Hands s s')
    (seq : 0 ≤ s.host.currentSeq →
      (∀ snap, s.host.loading = some snap → 0 ≤ snap.seq) → 0 ≤ s'.host.currentSeq)
    (timer : s'.host.snapshotTimer = s.host.snapshotTimer)
    (ended : ∀ k, s.host.awaited = some k → s.host.saveResult k ≠ none)
    (hsv : sv.pc.isEnded = false) (saves : s'.host.saves = s.host.saves ++ [sv])
    (awaited : s'.host.awaited = some s.host.saves.length)
    (loading : s'.host.loading = none) (known : pc.known = true) :
    Proceeds s s' :=
  { hands, seq, timer, ended
    awaits := .inr ⟨sv, hsv, saves, awaited⟩
    loading := fun snap hl => absurd hl (by rw [loading]; simp)
    knows := fun _ => .inl (.inr (.inr (.inr ⟨pc, hpc, known⟩))) }

theorem replay (hpc : s.host.activating = some .readEvents) :
    Proceeds s (s.replay cfg env) := by
  have hk : ∀ k, s.host.awaited = some k → s.host.saveResult k ≠ none := by
    intro k hk
    unfold Host.awaited at hk
    rw [hpc] at hk
    exact absurd hk (by simp [ActPc.awaits])
  have hseq : ∀ h0 : 0 ≤ s.host.currentSeq,
      0 ≤ (Sys.replayLoop s.host.cls cfg.registration.version
        ⟨s.host.state, s.host.currentSeq, 0, none⟩
        (s.store.readEvents (s.host.currentSeq + 1))).seq :=
    fun h0 => Sys.replayLoop_seq h0 ActorStore.readEvents_nonneg
  unfold Sys.replay
  dsimp only
  split
  · exact
      { hands := fun _ => .still rfl rfl (.apply _ .keep) rfl
        seq := fun h0 _ => hseq h0
        timer := rfl
        ended := hk
        awaits := .inl ⟨rfl, rfl⟩
        loading := fun _ hl => absurd hl (by simp [Host.loading, Sys.activationFailed,
          Sys.setActivating])
        knows := fun _ => .inl (.inr (.inr (.inr ⟨_, hpc, rfl⟩))) }
  · split
    · exact issue hpc (fun _ => .flush { s.host with objs := s.host.objs.assign _ }
        rfl rfl rfl rfl) (fun h0 _ => hseq h0) rfl hk rfl rfl rfl rfl rfl
    · refine plain hpc (.beginOnActivate _ env) (Sys.plain_beginOnActivate _ _)
        (fun _ => ?_) (fun h0 _ => hseq h0) rfl rfl hk (.inl rfl)
      refine (Ran.beginOnActivate _ env).hands_assign rfl rfl ?_ rfl
      show (_ || _) = _ ∨ (_ || _) = true
      cases decide (cfg.registration.snapshotEveryNEvents ≤ _) with
      | false => exact .inl (Bool.or_false _)
      | true => exact .inr (Bool.or_true _)

end Proceeds

/-- What is awaited or loaded stays so while steps are beside the state. -/
theorem Beside.awaited_eq {s s' : Sys S Env Op} (h : Beside s s') :
    s'.host.awaited = s.host.awaited ∧ s'.host.loading = s.host.loading := by
  have hnone : ∀ h : Host S Env,
      (∀ pc, h.activating = some pc → pc.beside = true) →
      h.awaited = none ∧ h.loading = none := by
    intro h hb
    unfold Host.awaited Host.loading
    cases hpc : h.activating with
    | none => exact ⟨rfl, rfl⟩
    | some pc =>
      have := hb pc hpc
      cases pc <;> simp_all [ActPc.beside, ActPc.awaits]
  rcases h.activating with he | ⟨hb, hb'⟩
  · unfold Host.awaited Host.loading
    rw [he]
    exact ⟨rfl, rfl⟩
  · obtain ⟨ha, hl⟩ := hnone _ hb
    obtain ⟨ha', hl'⟩ := hnone _ hb'
    exact ⟨ha'.trans ha.symm, hl'.trans hl.symm⟩

/-- Storage is not known of through a step beside the state. -/
theorem Beside.known {s s' : Sys S Env Op} (h : Beside s s') (hk : s'.Known) :
    s.Known := by
  refine hk.of_eq h.activated h.snapshotDirty h.saves (fun pc hpc hkn => ?_)
  have hb : pc.beside = false := by
    cases pc <;> simp_all [ActPc.known, ActPc.beside]
  exact .inr (.inr (.inr ⟨pc, h.activating_eq hpc hb, hkn⟩))

theorem Beside.proceeds {s s' : Sys S Env Op} (h : Beside s s')
    (hnone : s.host.awaited = none) : Proceeds s s' where
  hands _ := (Ran.beside h).hands
  seq h0 _ := h.currentSeq ▸ h0
  timer := h.snapshotTimer
  ended k hk := absurd hk (by rw [hnone]; simp)
  awaits := .inl ⟨h.saves, h.awaited_eq.1.trans hnone⟩
  loading snap hl := .inl (h.awaited_eq.2 ▸ hl)
  knows hk := .inl (h.known hk)

theorem Sys.proceeds_actStep {cfg : HostConfig S Env Op} {s s' : Sys S Env Op}
    {env : Env} {ok : Bool} (hl : Lifecycle s.flow.toLife)
    (hs : s.actStep cfg env ok = some s') : Proceeds s s' := by
  obtain ⟨pc, hpc, hseg⟩ := Sys.actSegment hs
  have hended : (∀ k, pc.awaits = some k → s.host.saveResult k ≠ none) →
      ∀ k, s.host.awaited = some k → s.host.saveResult k ≠ none := by
    intro h k hk
    unfold Host.awaited at hk
    rw [hpc, Option.bind_some] at hk
    exact h k hk
  have hidle : pc.awaits = none →
      ∀ k, s.host.awaited = some k → s.host.saveResult k ≠ none :=
    fun hn => hended (fun k hk => absurd (hn.symm.trans hk) (by simp))
  have hend : ∀ {k r}, pc.awaits = some k → s.host.saveResult k = some r →
      ∀ k, s.host.awaited = some k → s.host.saveResult k ≠ none := fun hn hr =>
    hended (fun k' hk' => by
      rw [← Option.some.inj (hn.symm.trans hk'), hr]
      exact Option.some_ne_none _)
  -- a part that works on the state, or on nothing
  have hran : Ran s s' → (∃ pc', s'.host.activating = some pc' ∧ pc'.plain = true) →
      (∀ k, s.host.awaited = some k → s.host.saveResult k ≠ none) →
      pc.known = true → Proceeds s s' := fun h hp hk hkn =>
    .plain hpc h hp (fun _ => h.hands) (fun h0 _ => h0) rfl rfl hk (.inl hkn)
  have haside : ∀ {pc' : ActPc S Env}, pc'.plain = true →
      (∀ k, s.host.awaited = some k → s.host.saveResult k ≠ none) →
      pc.known = true → s' = s.setActivating pc' → Proceeds s s' := by
    rintro pc' hp hk hkn rfl
    exact hran (.aside rfl rfl rfl rfl rfl rfl) ⟨_, rfl, hp⟩ hk hkn
  -- a part that is through with the state
  have hbeside : pc.through = true → Proceeds s s' := fun ht =>
    (Sys.beside_actStep hl hpc ht hs).proceeds (by
      unfold Host.awaited
      rw [hpc]
      cases pc <;> first | rfl | exact absurd ht (by simp [ActPc.through]))
  have hload : ∀ {snap r P}, pc = .loadFence snap r →
      (∀ snap r, s.host.activating ≠ some (.loadFence snap r)) → P :=
    fun he h => absurd (hpc.trans (congrArg some he)) (h _ _)
  have hloading : ∀ {snap r}, pc = .resolveCtor snap ∨ pc = .loadFence snap r →
      s.host.loading = snap := by
    rintro snap r (rfl | rfl) <;> (unfold Host.loading; rw [hpc])
  cases hseg with
  | failed e ht =>
    exact .aside (.aside rfl rfl rfl rfl rfl rfl) rfl rfl rfl
      (hended (fun k hk => ht.saveResult hk ▸ Option.some_ne_none _))
      (fun _ h => absurd h (by simp [Host.loading, Sys.activationFailed,
        Sys.setActivating])) (fun h => absurd h (by simp [ActPc.known]))
  | loadSnapshot =>
    refine .aside (.aside rfl rfl rfl rfl rfl rfl) rfl rfl rfl (hidle rfl)
      (fun _ h => .inr h) (fun h => .inr ?_)
    obtain ⟨snap, hsnap⟩ := Option.isSome_iff_exists.mp h
    exact (ActorStore.loadSnapshot_spec hsnap).2
  | @resolveCtor snap r hr =>
    exact .aside (.aside rfl rfl rfl rfl rfl rfl) rfl rfl rfl (hidle rfl)
      (fun snap' h => .inl ((hloading (r := r) (.inl rfl)).trans h))
      (fun h => .inl (.inr (.inr (.inr ⟨_, hpc, h⟩))))
  | blank =>
    exact
      { hands := hload rfl
        seq := fun h0 _ => h0
        timer := rfl
        ended := hidle rfl
        awaits := .inl ⟨rfl, rfl⟩
        loading := fun _ h => absurd h (by simp [Host.loading, Sys.setActivating])
        knows := fun h => .inl (h.of_eq rfl rfl rfl (fun pc he hk => by
          obtain rfl := Option.some.inj he
          exact absurd hk (by simp [ActPc.known]))) }
  | @migrates snap r =>
    unfold Sys.beginMigrate
    split
    · exact
        { hands := hload rfl
          seq := fun _ h => h snap (hloading (.inr rfl))
          timer := rfl
          ended := hidle rfl
          awaits := .inl ⟨rfl, rfl⟩
          loading := fun _ h => absurd h (by simp [Host.loading, Sys.setActivating])
          knows := fun _ => .inl (.inr (.inr (.inr ⟨_, hpc, rfl⟩))) }
    · exact .issue hpc (hload rfl) (fun _ h => h snap (hloading (.inr rfl))) rfl
        (hidle rfl) rfl rfl rfl rfl rfl
  | @loaded snap r =>
    exact .plain hpc (.beginReplay _ env) (Sys.plain_beginReplay _ _) (hload rfl)
      (fun _ h => h snap (hloading (.inr rfl))) rfl rfl (hidle rfl) (.inl rfl)
  | registerEs hok hes =>
    have h := Ran.beginOnInit { s.withRow cfg with
      host := { s.host with
        objs := s.host.objs.assign s.host.cls.initialState
        currentSeq := 0 } } env
    exact .plain hpc h (Sys.plain_beginOnInit _ _)
      (fun _ => h.hands_assign rfl rfl (.inl rfl) rfl) (fun _ _ => le_rfl) rfl rfl
      (hidle rfl) (.inr (by simp [Sys.withRow, ActorStore.registerActor]))
  | register =>
    have h' : Ran s _ := { Ran.beginOnInit (s.withRow cfg) env with }
    exact .plain hpc h' (Sys.plain_beginOnInit _ _) (fun _ => h'.hands)
      (fun h0 _ => h0) rfl rfl (hidle rfl)
      (.inr (by simp [Sys.withRow, ActorStore.registerActor]))
  | @onInit rest | @onActivate rest =>
    exact hran { Ran.runSegment s rest with } ⟨_, rfl, rfl⟩ (hidle rfl) rfl
  | initialized | noMigrate | audited =>
    exact hran (.beginReplay s env) (s.plain_beginReplay env) (hidle rfl) rfl
  | retained hr => exact haside rfl (hend rfl hr) rfl rfl
  | migrated =>
    unfold Sys.migrated
    dsimp only
    split
    · exact .issue hpc (fun _ => .flush
        { s.host with objs := s.host.objs.assign _ } rfl rfl rfl rfl)
        (fun h0 _ => h0) rfl (hidle rfl) rfl rfl rfl rfl rfl
    · exact
        { hands := fun _ => .marked rfl rfl
          seq := fun h0 _ => h0
          timer := rfl
          ended := hidle rfl
          awaits := .inl ⟨rfl, rfl⟩
          loading := fun _ h => absurd h (by simp [Host.loading, Sys.setActivating])
          knows := fun _ => .inl (.inr (.inr (.inr ⟨_, hpc, rfl⟩))) }
  | migrateFlushed hr =>
    exact hran (.aside rfl rfl rfl rfl rfl rfl) ⟨_, rfl, rfl⟩ (hend rfl hr) rfl
  | upToDate =>
    exact hran (.beginOnActivate s env) (s.plain_beginOnActivate env) (hidle rfl) rfl
  | behind => exact haside rfl (hidle rfl) rfl rfl
  | replayed => exact .replay hpc
  | replayFlushed hr =>
    exact hran { Ran.beginOnActivate s.afterFlush env with }
      (Sys.plain_beginOnActivate _ env) (hend rfl hr) rfl
  | activated => exact hran (.aside rfl rfl rfl rfl rfl rfl) ⟨_, rfl, rfl⟩ (hidle rfl) rfl
  | inboxFailed | readInbox | replayInbox | settled => exact hbeside rfl

/-! ## The steps of a turn -/

/-- **What a segment of worker `g` does to what the flush reads.** -/
structure TurnPart (g : ℕ) (s s' : Sys S Env Op) : Prop where
  hands : Hands s s'
  inst : s'.host.inst = s.host.inst
  activated : s'.host.activated = s.host.activated
  activating : s'.host.activating = s.host.activating
  deactivating : s'.host.deactivating = s.host.deactivating
  workers : ∀ g', g' ≠ g → s'.host.workers g' = s.host.workers g'
  /-- The seq that an append has returned. -/
  appended : ∀ item events seq, s'.host.workers g = .appended item events seq →
    0 ≤ seq
  seq : 0 ≤ s.host.currentSeq → (∀ item events seq,
    s.host.workers g = .appended item events seq → 0 ≤ seq) →
    0 ≤ s'.host.currentSeq

namespace TurnPart

variable {cfg : HostConfig S Env Op} {s s' t : Sys S Env Op} {g : ℕ}

/-- The worker moves on after a part of its turn. -/
theorem setWorker (hh : Hands s s') {pc : WorkerPc S}
    (workers : s'.host.workers = update s.host.workers g pc)
    (inst : s'.host.inst = s.host.inst)
    (activated : s'.host.activated = s.host.activated)
    (activating : s'.host.activating = s.host.activating)
    (deactivating : s'.host.deactivating = s.host.deactivating)
    (hpc : ∀ item events seq, pc = .appended item events seq → 0 ≤ seq)
    (seq : 0 ≤ s.host.currentSeq → (∀ item events seq,
      s.host.workers g = .appended item events seq → 0 ≤ seq) →
      0 ≤ s'.host.currentSeq) : TurnPart g s s' where
  hands := hh
  inst := inst
  activated := activated
  activating := activating
  deactivating := deactivating
  workers g' hne := by rw [workers, Function.update_of_ne hne]
  appended item events seq he := by
    rw [workers, Function.update_self] at he
    exact hpc item events seq he
  seq := seq

/-- The worker moves, and nothing else the flush reads does. -/
theorem moved (h : Ran s s') {pc : WorkerPc S}
    (workers : s'.host.workers = update s.host.workers g pc)
    (inst : s'.host.inst = s.host.inst)
    (activated : s'.host.activated = s.host.activated)
    (activating : s'.host.activating = s.host.activating)
    (deactivating : s'.host.deactivating = s.host.deactivating)
    (hpc : ∀ item events seq, pc ≠ .appended item events seq) : TurnPart g s s' :=
  setWorker h.hands workers inst activated activating deactivating
    (fun _ _ _ he => absurd he (hpc _ _ _)) (fun h0 _ => h.currentSeq ▸ h0)

/-- Not even the state does. -/
theorem aside (objs : s'.host.objs = s.host.objs) (cls : s'.host.cls = s.host.cls)
    (currentSeq : s'.host.currentSeq = s.host.currentSeq)
    (snapshotDirty : s'.host.snapshotDirty = s.host.snapshotDirty)
    (snapshotTimer : s'.host.snapshotTimer = s.host.snapshotTimer)
    (saves : s'.host.saves = s.host.saves) {pc : WorkerPc S}
    (workers : s'.host.workers = update s.host.workers g pc)
    (inst : s'.host.inst = s.host.inst)
    (activated : s'.host.activated = s.host.activated)
    (activating : s'.host.activating = s.host.activating)
    (deactivating : s'.host.deactivating = s.host.deactivating)
    (hpc : ∀ item events seq, pc ≠ .appended item events seq) : TurnPart g s s' :=
  moved (.aside objs cls currentSeq snapshotDirty snapshotTimer saves) workers inst
    activated activating deactivating hpc

theorem turnFailed (s : Sys S Env Op) (g : ℕ) (item : Item) (e : HostError) :
    TurnPart g s (s.turnFailed g item e) :=
  aside rfl rfl rfl rfl rfl rfl rfl rfl rfl rfl rfl (by simp)

theorem runHandler (s : Sys S Env Op) (g : ℕ) (item : Item)
    (p : Script S Json) : TurnPart g s (s.runHandler g item p) := by
  refine moved ⟨⟨p.change, rfl⟩, rfl, rfl, rfl, rfl, rfl⟩ rfl rfl rfl rfl rfl
    (fun _ _ _ => ?_)
  unfold WorkerPc.after
  split <;> simp

theorem commitEsTail (s : Sys S Env Op) (g : ℕ) (item : Item)
    (events : List Json) : TurnPart g s (s.commitEsTail cfg g item events) := by
  unfold Sys.commitEsTail
  dsimp only
  split
  · exact setWorker (.flush s.host rfl rfl rfl rfl) rfl rfl rfl rfl rfl (by simp)
      (fun h0 _ => h0)
  · exact aside rfl rfl rfl rfl rfl rfl rfl rfl rfl rfl rfl (by simp)

/-- What is in storage does not matter. -/
theorem of_host (ht : t.host = s.host) (h : TurnPart g t s') : TurnPart g s s' := by
  obtain ⟨hands, inst, activated, activating, deactivating, workers, appended,
    seq⟩ := h
  rw [ht] at inst activated activating deactivating workers seq
  refine ⟨?_, inst, activated, activating, deactivating, workers, appended, seq⟩
  cases hands with
  | marked hd hs => exact .marked hd (ht ▸ hs)
  | handed hd hs ho => exact .handed hd (ht ▸ hs) ho
  | still hd hs ho hc => exact .still (ht ▸ hd) (ht ▸ hs) (ht ▸ ho) (ht ▸ hc)

end TurnPart

theorem Sys.turnPart_workerStep {cfg : HostConfig S Env Op} {s s' : Sys S Env Op}
    {g : ℕ} {env : Env} {ok : Bool} (hs : s.workerStep cfg g env ok = some s') :
    TurnPart g s s' := by
  obtain ⟨pc, hpc, hseg⟩ := Sys.workerSegment hs
  cases hseg with
  | dequeue =>
    refine .aside rfl rfl rfl rfl rfl rfl rfl rfl rfl rfl rfl ?_
    cases (s.host.mailbox.dequeue g).result <;> simp [dequeuedPc]
  | exit | refuse | ignore | ackSwm | resolveEmpty | ackEmpty | append | emptyAcked | flushed
  | ignored | finish =>
    exact .aside rfl rfl rfl rfl rfl rfl rfl rfl rfl rfl rfl (by simp)
  | @start item =>
    exact { TurnPart.runHandler (s.starting item) g item _ with
      hands := .still rfl rfl (.apply _ _) rfl }
  | run => exact .runHandler s g _ _
  | failed e => exact .turnFailed s g _ e
  | resolveSwm | swmAcked =>
    exact .setWorker (.marked rfl rfl) rfl rfl rfl rfl rfl (by simp) (fun h0 _ => h0)
  | appended hok ha =>
    refine .setWorker (.still rfl rfl (.apply _ .keep) rfl) rfl rfl rfl rfl rfl
      (fun item' events' seq' he => ?_) (fun h0 _ => h0)
    obtain ⟨-, -, rfl⟩ := WorkerPc.appended.inj he
    rw [(ActorStore.appendEvents_spec ha).2.1]
    exact Int.natCast_nonneg _
  | ackEs =>
    exact .setWorker (.marked rfl rfl) rfl rfl rfl rfl rfl (by simp) (fun _ h => h _ _ _ hpc)
  | @resolveEs method args c events seq x hf =>
    unfold Sys.commitEsTail
    dsimp only
    split
    · exact .setWorker (.flush { s.host with objs := s.host.objs.assign x } rfl rfl rfl rfl)
        rfl rfl rfl rfl rfl (by simp) (fun _ h => h _ _ _ hpc)
    · exact .setWorker (.marked rfl rfl) rfl rfl rfl rfl rfl (by simp)
        (fun _ h => h _ _ _ hpc)
  | @esAcked item id events =>
    exact .of_host (t := s.afterAck id) rfl (.commitEsTail _ g item events)

/-! ## The steps of a deactivation -/

/-- The next segment of the deactivation drops the instance. -/
def Sys.drops (s : Sys S Env Op) : Bool :=
  match s.host.deactivating with
  | some ⟨.awaitWorker g, _⟩ =>
    match s.host.workers g with
    | .done => !s.host.flushes && s.host.cls.onDeactivate.isNone
    | _ => false
  | some ⟨.flush k, _⟩ =>
    s.host.saveResult k == some true && s.host.cls.onDeactivate.isNone
  | some ⟨.onDeactivate (.returned _), _⟩ => true
  | _ => false

@[simp] theorem Sys.deactivating_setDeactivating (s : Sys S Env Op)
    (d : Deactivation S) : (s.setDeactivating d).host.deactivating = some d := rfl
@[simp] theorem Sys.deactivating_dropInstance (s : Sys S Env Op) (idle : Bool) :
    (s.dropInstance idle).host.deactivating = some ⟨.finishing (.ok ()), idle⟩ :=
  rfl

/-- **What a segment of a deactivation does to what the flush reads.** -/
structure Ends (s s' : Sys S Env Op) : Prop where
  hands : Hands s s'
  currentSeq : s'.host.currentSeq = s.host.currentSeq
  workers : s'.host.workers = s.host.workers
  activating : s'.host.activating = s.host.activating
  activated : s'.host.activated = s.host.activated
    ∨ s'.host.activated = false ∧ s'.host.saves = s.host.saves
      ∧ ∃ o idle, s.host.deactivating = some ⟨.finishing o, idle⟩
  /-- The timer is cleared at the start. -/
  timer : s'.host.snapshotTimer = true → s.host.snapshotTimer = true
    ∧ ∀ g idle, s.host.deactivating ≠ some ⟨.awaitWorker g, idle⟩
  clean : s.host.inst ≠ none → s'.host.snapshotDirty = false
    ∨ s'.host.snapshotDirty = s.host.snapshotDirty
      ∧ ∀ g idle, s.host.deactivating ≠ some ⟨.awaitWorker g, idle⟩
  deactivating : ∀ g idle, s'.host.deactivating ≠ some ⟨.awaitWorker g, idle⟩
  /-- The instance is kept, or dropped as `drops` says. -/
  inst : s'.host.inst = s.host.inst
      ∧ (∀ idle, s'.host.deactivating ≠ some ⟨.finishing (.ok ()), idle⟩)
    ∨ s'.host.inst = none ∧ s'.host.saves = s.host.saves
      ∧ s'.host.snapshotDirty = s.host.snapshotDirty
      ∧ (s.host.inst ≠ none → s.drops = true)
  failed : ∀ e idle, s'.host.deactivating = some ⟨.finishing (.error e), idle⟩ →
    ∃ k, s.host.saveResult k = some false

namespace Ends

variable {s t : Sys S Env Op} {env : Env} {d : Deactivation S}

/-- The `onDeactivate` hook, or what follows it, after a part that only
counts. -/
theorem beginOnDeactivate (hd : s.host.deactivating = some d)
    (objs : t.host.objs = s.host.objs) (cls : t.host.cls = s.host.cls)
    (currentSeq : t.host.currentSeq = s.host.currentSeq)
    (dirty : t.host.snapshotDirty = s.host.snapshotDirty)
    (saves : t.host.saves = s.host.saves) (inst : t.host.inst = s.host.inst)
    (workers : t.host.workers = s.host.workers)
    (activating : t.host.activating = s.host.activating)
    (activated : t.host.activated = s.host.activated)
    (timer : t.host.snapshotTimer = true → s.host.snapshotTimer = true
      ∧ ∀ g, d.pc ≠ .awaitWorker g)
    (clean : s.host.inst ≠ none → s.host.snapshotDirty = false
      ∨ ∀ g, d.pc ≠ .awaitWorker g)
    (drops : s.host.cls.onDeactivate = none → s.drops = true) (idle : Bool) :
    Ends s (t.beginOnDeactivate env idle) := by
  have hawait : (∀ g, d.pc ≠ .awaitWorker g) →
      ∀ g idle, s.host.deactivating ≠ some ⟨.awaitWorker g, idle⟩ := by
    intro h g idle he
    exact h g (by rw [Option.some.inj (hd.symm.trans he)])
  have hclean : s.host.inst ≠ none → t.host.snapshotDirty = false
      ∨ t.host.snapshotDirty = s.host.snapshotDirty
        ∧ ∀ g idle, s.host.deactivating ≠ some ⟨.awaitWorker g, idle⟩ := by
    intro hi
    rcases clean hi with hc | hc
    · exact .inl (dirty.trans hc)
    · exact .inr ⟨dirty, hawait hc⟩
  unfold Sys.beginOnDeactivate
  split
  · next g f hg hf =>
    refine ⟨.still dirty saves ?_ cls, currentSeq, workers, activating,
      .inl activated, fun ht => ⟨(timer ht).1, hawait (timer ht).2⟩, hclean,
      by simp,
      .inl ⟨inst, by simp⟩, by simp⟩
    show Objects.Segment s.host.objs (t.host.objs.apply _)
    rw [objs]
    exact .apply _ _
  · next hnone =>
    refine ⟨.still dirty saves ?_ cls, currentSeq, workers, activating,
      .inl activated, fun ht => ⟨(timer ht).1, hawait (timer ht).2⟩, hclean,
      by simp,
      .inr ⟨rfl, saves, dirty, fun hi => drops ?_⟩, by simp⟩
    · show Objects.Segment s.host.objs t.host.objs
      rw [objs]
      exact .apply _ .keep
    · obtain ⟨g, hg⟩ := Option.ne_none_iff_exists'.mp hi
      by_contra hf
      obtain ⟨f, hf⟩ := Option.ne_none_iff_exists'.mp hf
      exact hnone g f (inst.trans hg) (cls ▸ hf)

end Ends

theorem Sys.ends_deactStep {s s' : Sys S Env Op} {env : Env}
    (hs : s.deactStep env = some s') : Ends s s' := by
  obtain ⟨pc, idle, hd, hseg⟩ := Sys.deactSegment hs
  have hdrop : ∀ {r}, pc = .onDeactivate (.returned r) → s.drops = true := by
    rintro r rfl
    unfold Sys.drops
    rw [hd]
  cases hseg with
  | flush =>
    exact ⟨.flush s.host rfl rfl rfl rfl, rfl, rfl, rfl, .inl rfl,
      fun ht => absurd ht (by simp [Sys.setDeactivating, Host.flushSnapshot]),
      fun _ => .inl rfl, by simp, .inl ⟨rfl, by simp⟩, by simp⟩
  | unflushed hg hf =>
    have hdirty : s.host.inst ≠ none → s.host.snapshotDirty = false := by
      intro hi
      obtain ⟨g, hg⟩ := Option.ne_none_iff_exists'.mp hi
      simpa [Host.flushes, hg] using hf
    refine .beginOnDeactivate
      (t := { s with host := { s.host with snapshotTimer := false } }) hd rfl
      rfl rfl rfl rfl rfl rfl rfl rfl (fun ht => absurd ht Bool.false_ne_true)
      (fun hi => .inl (hdirty hi)) (fun hn => ?_) idle
    unfold Sys.drops
    rw [hd]
    dsimp only
    rw [hg, hn, hf]
    rfl
  | flushed hr =>
    refine .beginOnDeactivate (t := s.afterFlush) hd rfl rfl rfl rfl rfl rfl rfl rfl rfl
      (fun ht => ⟨ht, by simp⟩) (fun _ => .inr (by simp)) (fun hn => ?_) idle
    unfold Sys.drops
    rw [hd]
    dsimp only
    rw [hr, hn]
    rfl
  | @flushFailed k hr =>
    exact ⟨.still rfl rfl (.apply _ .keep) rfl, rfl, rfl, rfl, .inl rfl,
      fun ht => ⟨ht, by simp [hd]⟩, fun _ => .inr ⟨rfl, by simp [hd]⟩,
      by simp, .inl ⟨rfl, by simp⟩, fun _ _ _ => ⟨k, hr⟩⟩
  | onDeactivate =>
    exact ⟨.still rfl rfl (.apply _ _) rfl, rfl, rfl, rfl, .inl rfl,
      fun ht => ⟨ht, by simp [hd]⟩, fun _ => .inr ⟨rfl, by simp [hd]⟩,
      by simp, .inl ⟨rfl, by simp⟩, by simp⟩
  | threw | dropped =>
    exact ⟨.still rfl rfl (.apply _ .keep) rfl, rfl, rfl, rfl, .inl rfl,
      fun ht => ⟨ht, by simp [hd]⟩, fun _ => .inr ⟨rfl, by simp [hd]⟩,
      by simp, .inr ⟨rfl, rfl, rfl, fun _ => hdrop rfl⟩, by simp⟩
  | settled =>
    exact ⟨.still rfl rfl (.apply _ .keep) rfl, rfl, rfl, rfl,
      .inr ⟨rfl, rfl, _, idle, hd⟩, fun ht => ⟨ht, by simp [hd]⟩,
      fun _ => .inr ⟨rfl, by simp [hd]⟩, by simp, .inl ⟨rfl, by simp⟩, by simp⟩

/-! ## What holds of every reachable host

The facts a flush takes for granted, as an invariant of their own. -/

/-- **What a flush can rely on**: the actor has a row to save under, seqs are
not negative, the debounce timer runs only for a host in use, and a host
beyond its final flush is not dirty. None of this depends on writes that land,
so it holds of every reachable host. -/
structure Flushable (s : Sys S Env Op) : Prop where
  row : s.Known → s.store.row ≠ none
  seq : 0 ≤ s.host.currentSeq
  loaded : ∀ snap, s.host.loading = some snap → 0 ≤ snap.seq
  appended : ∀ g item events seq,
    s.host.workers g = .appended item events seq → 0 ≤ seq
  timer : s.host.snapshotTimer = true → s.host.activated = true
    ∧ ∀ d, s.host.deactivating = some d → ∃ g, d.pc = .awaitWorker g
  clean : ∀ d, s.host.deactivating = some d → (∀ g, d.pc ≠ .awaitWorker g) →
    s.host.snapshotDirty = false

namespace Flushable

variable {cfg : HostConfig S Env Op} {s s' : Sys S Env Op} {env : Env}

/-- A host that was just constructed. -/
theorem init (cfg : HostConfig S Env Op) (store : ActorStore S) :
    Flushable (Sys.init cfg store) where
  row hk := by
    obtain hk | hk | hk | ⟨pc, hk, -⟩ := hk
    · exact absurd hk (by simp [Sys.init, Host.init])
    · exact absurd hk (by simp [Sys.init, Host.init])
    · exact absurd rfl hk
    · exact absurd hk (by simp [Sys.init, Host.init])
  seq := le_rfl
  loaded snap h := absurd h (by simp [Host.loading, Sys.init, Host.init])
  appended g item events seq h := absurd h (by simp [Sys.init, Host.init])
  timer h := absurd h (by simp [Sys.init, Host.init])
  clean d h := absurd h (by simp [Sys.init, Host.init])

theorem of_beside (h : Flushable s) (hb : Beside s s') : Flushable s' where
  row hk := by
    rw [hb.row]
    exact h.row (hb.known hk)
  seq := hb.currentSeq ▸ h.seq
  loaded snap hl := h.loaded snap (hb.awaited_eq.2 ▸ hl)
  appended g item events seq hg :=
    h.appended g item events seq <| by
      rw [← hg]
      refine (hb.workers_eq (fun hw => ?_)).symm
      rcases hb.workers g with he | ⟨-, ⟨item', he⟩ | he⟩
      · rw [hw, hg] at he
        exact absurd he (by simp)
      · rw [hg] at he
        exact absurd he (by simp)
      · rw [hg] at he
        exact absurd he (by simp)
  timer ht := by
    obtain ⟨ha, hd⟩ := h.timer (hb.snapshotTimer ▸ ht)
    refine ⟨hb.activated.trans ha, fun d hd' => ?_⟩
    rcases hb.deactivating with he | ⟨-, g, idle, he⟩
    · exact hd d (he ▸ hd')
    · obtain rfl := Option.some.inj (he.symm.trans hd')
      exact ⟨g, rfl⟩
  clean d hd hne := by
    rw [hb.snapshotDirty]
    rcases hb.deactivating with he | ⟨-, g, idle, he⟩
    · exact h.clean d (he ▸ hd) hne
    · obtain rfl := Option.some.inj (he.symm.trans hd)
      exact absurd rfl (hne g)

/-- An activated host goes on with its activation beside the state; of any
other the timer is off, and no deactivation in progress. -/
theorem of_actStep {ok : Bool} (h : Flushable s) (hl : Lifecycle s.flow.toLife)
    (hs : s.actStep cfg env ok = some s') : Flushable s' := by
  rcases Sys.beside_or_opens hl hs with hb | ⟨ha, -⟩
  · exact h.of_beside hb
  · have ha : s.host.activated ≠ true := by simp [ha]
    have hp := Sys.proceeds_actStep hl hs
    have ho := Sys.opens_actStep hs
    have hd : s'.host.deactivating = none := by
      rw [ho.deactivating]
      by_contra hd
      obtain ⟨d, hd⟩ := Option.ne_none_iff_exists'.mp hd
      exact ha (hl.activated_of_deact hd)
    exact
      { row := fun hk => (hp.knows hk).elim
          (fun hk => (Sys.writes_actStep hs).row_ne (h.row hk)) id
        seq := hp.seq h.seq h.loaded
        loaded := fun snap hsnap => (hp.loading snap hsnap).elim (h.loaded snap)
          (fun hst => (ActorStore.loadSnapshot_spec hst).1)
        appended := fun g item events seq hg => by
          rcases ho.workers g with he | he
          · exact h.appended g item events seq (he ▸ hg)
          · rw [hg] at he
            exact absurd he (by simp [WorkerPc.idle])
        timer := fun ht => absurd (h.timer (hp.timer ▸ ht)).1 ha
        clean := fun d hd' => absurd hd' (by rw [hd]; simp) }

/-- A worker is alive only on an activated host, whose deactivation, if any,
awaits it. -/
theorem of_workerStep {g : ℕ} {ok : Bool} (h : Flushable s)
    (hl : Lifecycle s.flow.toLife) (hs : s.workerStep cfg g env ok = some s') :
    Flushable s' := by
  have ht := Sys.turnPart_workerStep hs
  have hg := Sys.alive_of_workerStep hs
  have ha : s.host.activated = true := (hl.alive g hg).1
  have hawait : ∀ d, s'.host.deactivating = some d → ∃ g, d.pc = .awaitWorker g :=
    fun d hd => hl.awaits hg (ht.deactivating ▸ hd)
  exact
    { row := fun _ => (Sys.writes_workerStep hs).row_ne (h.row (.inl ha))
      seq := ht.seq h.seq (h.appended g)
      loaded := fun snap hsnap => h.loaded snap <| by
        rw [← hsnap]
        unfold Host.loading
        rw [ht.activating]
      appended := fun g' item events seq hg' => by
        by_cases hne : g' = g
        · exact ht.appended item events seq (hne ▸ hg')
        · exact h.appended g' item events seq (ht.workers g' hne ▸ hg')
      timer := fun _ => ⟨ht.activated.trans ha, hawait⟩
      clean := fun d hd hne => by
        obtain ⟨g', he⟩ := hawait d hd
        exact absurd he (hne g') }

theorem of_deactStep (h : Flushable s) (hl : Lifecycle s.flow.toLife)
    (hs : s.deactStep env = some s') : Flushable s' := by
  have he := Sys.ends_deactStep hs
  cases hd : s.host.deactivating with
  | none => rw [Sys.deactStep, hd] at hs; exact absurd hs (by simp)
  | some d =>
  have ha := hl.activated_of_deact hd
  exact
    { row := fun _ => by
        rw [Sys.store_deactStep hs]
        exact h.row (.inl ha)
      seq := he.currentSeq ▸ h.seq
      loaded := fun snap hsnap => h.loaded snap <| by
        rw [← hsnap]
        unfold Host.loading
        rw [he.activating]
      appended := fun g item events seq hg =>
        h.appended g item events seq (he.workers ▸ hg)
      timer := fun ht => by
        obtain ⟨ht, hne⟩ := he.timer ht
        obtain ⟨g, hg⟩ := (h.timer ht).2 d hd
        exact absurd (hd.trans (by rw [← hg])) (hne g d.idle)
      clean := fun d' hd' _ => by
        by_cases hdrop : d.pc = .finishing (.ok ())
        · obtain ⟨pc, idle⟩ := d
          obtain rfl : pc = _ := hdrop
          simp only [Sys.deactStep, hd] at hs
          obtain rfl := Option.some.inj hs
          exact absurd hd' (by simp)
        · have hi := hl.inst_ne_none ha (fun idle he => by
            obtain rfl := Option.some.inj (hd.symm.trans he)
            exact hdrop rfl)
          rcases he.clean hi with hc | ⟨hc, hne⟩
          · exact hc
          · rw [hc]
            exact h.clean d hd (fun g hg => hne g d.idle (hd.trans (by rw [← hg]))) }

/-- The timer fires on a host in use. -/
theorem of_snapshotFire (h : Flushable s) (hs : s.snapshotFire = some s') :
    Flushable s' := by
  unfold Sys.snapshotFire at hs
  split at hs
  · next ht =>
    obtain ⟨ha, hd⟩ := h.timer ht
    dsimp only at hs
    split at hs <;> obtain rfl := Option.some.inj hs
    · exact
        { row := fun _ => h.row (.inl ha)
          seq := h.seq
          loaded := h.loaded
          appended := h.appended
          timer := fun ht => absurd ht (by simp [Host.flushSnapshot])
          clean := fun _ _ _ => rfl }
    · exact
        { row := fun _ => h.row (.inl ha)
          seq := h.seq
          loaded := h.loaded
          appended := h.appended
          timer := fun ht => absurd ht (by simp)
          clean := h.clean }
  · exact absurd hs (by simp)

/-- A step after which the host is as before, but for its writes and its
subscribers. -/
theorem frame (h : Flushable s) (activated : s'.host.activated = s.host.activated)
    (dirty : s'.host.snapshotDirty = s.host.snapshotDirty)
    (timer : s'.host.snapshotTimer = s.host.snapshotTimer)
    (currentSeq : s'.host.currentSeq = s.host.currentSeq)
    (workers : s'.host.workers = s.host.workers)
    (activating : s'.host.activating = s.host.activating)
    (deactivating : s'.host.deactivating = s.host.deactivating)
    (saves : s'.host.saves ≠ [] → s.host.saves ≠ [])
    (row : s'.store.row = s.store.row) : Flushable s' where
  row hk := by
    rw [row]
    obtain hk | hk | hk | ⟨pc, hk, hkn⟩ := hk
    · exact h.row (.inl (activated ▸ hk))
    · exact h.row (.inr (.inl (dirty ▸ hk)))
    · exact h.row (.inr (.inr (.inl (saves hk))))
    · exact h.row (.inr (.inr (.inr ⟨pc, activating ▸ hk, hkn⟩)))
  seq := currentSeq ▸ h.seq
  loaded snap hl := h.loaded snap <| by
    rw [← hl]
    unfold Host.loading
    rw [activating]
  appended g item events seq hg := h.appended g item events seq (workers ▸ hg)
  timer ht := by
    rw [activated, deactivating]
    exact h.timer (timer ▸ ht)
  clean d hd hne := by
    rw [dirty]
    exact h.clean d (deactivating ▸ hd) hne

theorem of_saveStep {k : ℕ} {ok : Bool} (h : Flushable s)
    (hs : s.saveStep k ok = some s') : Flushable s' := by
  have hset : ∀ sv : Save S, s.host.saves.set k sv ≠ [] → s.host.saves ≠ [] :=
    fun sv hne he => hne (by rw [he]; rfl)
  unfold Sys.saveStep at hs
  split at hs
  · split at hs <;> obtain rfl := Option.some.inj hs <;>
      exact h.frame rfl rfl rfl rfl rfl rfl rfl (hset _) rfl
  · split at hs <;> obtain rfl := Option.some.inj hs <;>
      exact h.frame rfl rfl rfl rfl rfl rfl rfl (hset _) rfl
  · exact absurd hs (by simp)

/-- **Every step keeps what a flush relies on.** -/
theorem step {a : Act Env} (h : Flushable s) (hl : Lifecycle s.flow.toLife)
    (hs : s.step cfg a = some s') : Flushable s' := by
  by_cases hb : a.beside = true
  · exact h.of_beside (Sys.beside_step hl hb hs)
  cases a with
  | activation env ok => exact h.of_actStep hl hs
  | worker g env ok => exact h.of_workerStep hl hs
  | deactivation env => exact h.of_deactStep hl hs
  | snapshotFire => exact h.of_snapshotFire hs
  | save k ok => exact h.of_saveStep hs
  | subscribe l =>
    rw [Sys.step, Sys.subscribe] at hs
    split at hs
    · exact absurd hs (by simp)
    · obtain rfl := Option.some.inj hs
      exact h.frame rfl rfl rfl rfl rfl rfl rfl id rfl
  | unsubscribe l =>
    obtain rfl := Option.some.inj hs
    exact h.frame rfl rfl rfl rfl rfl rfl rfl id rfl
  | notifyTombstone =>
    obtain rfl := Option.some.inj hs
    exact h.frame rfl rfl rfl rfl rfl rfl rfl id rfl
  | _ => exact absurd rfl hb

end Flushable
