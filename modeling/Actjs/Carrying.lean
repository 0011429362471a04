import Actjs.Flushing

/-!
# Carrying the value to storage

What `snapshot()` returns is on its way to storage while the host is not marked
dirty: it is in the object the last write refers to, then in what that write has
encoded, then live. `Watched` records beside the host what only a bystander knows,
above all whether something has changed the state behind the mark, and `Carrying`
is the invariant. It survives a write that fails, if the host has been marked
dirty again by then, or has handed a later write to the driver.

## How it is proved

`Carries` follows the value through the three places. A write that is encoded
moves it from the object to what was encoded, which is `Saved.encode`; one
that lands moves it into the table, which is `Saved.land`, and nothing that is
live may have a higher seq by then. Everything else a host does leaves the
last write where it is, or hands over one of the object that is current.

A step of user code may change the state of a host that is not dirty. The
invariant says nothing of the value from there to the next mark, and `unsaved`
records it.
-/

variable {S Env Op : Type}

/-- A segment of worker `g` that has led to `s'` commits a turn. -/
def Sys.commitsTurn (s s' : Sys S Env Op) (g : ℕ) : Bool :=
  match s.host.workers g, s'.host.workers g with
  | .returned _ (.ok _), .committed _ => !s.host.cls.isEs
  | .acking _ _ .swm, .committed _ => true
  | .appended _ _ _, .looping => false
  | .appended _ _ _, _ => true
  | _, _ => false

/-! ## A host that is watched

The record is made beside the host, in definitions that read it and that no
definition of it reads. -/

/-- **A host, and what only a bystander knows of it**: whether the state may
have changed behind the dirty mark, what the state was when the last item was
taken, whether a turn that changed it was ever committed, and what
`snapshot()` returned when the instance was dropped, while there is none. -/
structure Watched (S Env Op : Type) where
  sys : Sys S Env Op
  /-- The state may have changed since the host was marked dirty last. -/
  unsaved : Bool
  /-- The state when the last item was taken. -/
  before : S
  /-- A turn that changed the state has been committed. -/
  turned : Bool
  /-- What `snapshot()` returned when the instance was dropped. -/
  dropped : Option S

namespace Watched

/-- A new host. -/
def init (cfg : HostConfig S Env Op) (store : ActorStore S) : Watched S Env Op :=
  ⟨.init cfg store, true, cfg.registration.ctor.blank, false, none⟩

/-- Whether the state may have changed behind the dirty mark once a step has
led to `s'`. A host that has constructed the instance from a snapshot starts
with what is stored, unless the snapshot is still to be migrated. -/
def unsavedAfter [DecidableEq S] (w : Watched S Env Op) (a : Act Env)
    (s' : Sys S Env Op) : Bool :=
  if s'.host.snapshotDirty = true then false
  else
    match a, w.sys.host.activating with
    | .activation _ true, some (.loadFence none _) => true
    | .activation _ true, some (.loadFence (some snap) r) =>
      r.willMigrateSnap || decide (s'.host.snapshotValue ≠ snap.state)
    | _, _ =>
      if w.sys.host.saves.length < s'.host.saves.length then false
      else w.unsaved || decide (s'.host.snapshotValue ≠ w.sys.host.snapshotValue)

/-- The state as the last item was taken, once a step was made. -/
def beforeAfter (w : Watched S Env Op) (a : Act Env) : S :=
  match a with
  | .worker g _ _ =>
    match w.sys.host.workers g with
    | .received _ => w.sys.host.state
    | _ => w.before
  | _ => w.before

/-- Whether a turn that changed the state was committed by the time a step has
led to `s'`. -/
def turnedAfter [DecidableEq S] (w : Watched S Env Op) (a : Act Env)
    (s' : Sys S Env Op) : Bool :=
  w.turned ||
    match a with
    | .worker g _ _ =>
      w.sys.commitsTurn s' g && decide (s'.host.state ≠ w.before)
    | _ => false

/-- What `snapshot()` returned when the instance was dropped, once a step has
led to `s'`. -/
def droppedAfter (w : Watched S Env Op) (s' : Sys S Env Op) : Option S :=
  if s'.host.inst.isSome = true then none
  else if w.sys.host.inst.isSome = true then some w.sys.host.snapshotValue
  else w.dropped

/-- The host once a step has led to `s'`. -/
def next [DecidableEq S] (w : Watched S Env Op) (a : Act Env)
    (s' : Sys S Env Op) : Watched S Env Op :=
  ⟨s', w.unsavedAfter a s', w.beforeAfter a, w.turnedAfter a s', w.droppedAfter s'⟩

/-- **One step of a host that is watched.** -/
def step [DecidableEq S] (cfg : HostConfig S Env Op) (w : Watched S Env Op)
    (a : Act Env) : Option (Watched S Env Op) :=
  (w.sys.step cfg a).map (w.next a)

/-- Watching does not get in the way. -/
theorem run_sys [DecidableEq S] (cfg : HostConfig S Env Op)
    (as : List (Act Env)) (w : Watched S Env Op) :
    (TransitionSystem.run (step cfg) w as).map sys
      = TransitionSystem.run (Sys.step cfg) w.sys as := by
  induction as generalizing w with
  | nil => rfl
  | cons a as ih =>
    rw [TransitionSystem.run_cons, TransitionSystem.run_cons, step]
    cases w.sys.step cfg a with
    | none => rfl
    | some s' => exact ih _

end Watched

/-! ## When the flush is not enough

The condition, for failing writes: after one that fails there is still
something that will write the value. -/

/-- **Write `k` of seq `seq` lands in order**: not over the last write, if
that has landed, and if it is the last one not below what is stored. -/
def Sys.LandsInOrder (s : Sys S Env Op) (k : ℕ) (seq : ℤ) : Prop :=
  seq < 0 ∨
    match s.host.saves.getLast? with
    | some ⟨q, _, .ended _⟩ => seq < q
    | _ => k + 1 = s.host.saves.length → ∀ p ∈ s.store.snapshots, p.fst ≤ seq

instance (s : Sys S Env Op) (k : ℕ) (seq : ℤ) :
    Decidable (s.LandsInOrder k seq) := by
  unfold Sys.LandsInOrder
  rcases s.host.saves.getLast? with _ | ⟨q, v, _ | _ | _⟩ <;> infer_instance

/-- A later flush than write `k` was handed to the driver. -/
def Host.flushedAfter (h : Host S Env) (k : ℕ) : Bool :=
  (h.saves.drop (k + 1)).any (fun sv => decide (0 ≤ sv.seq))

/-- What is asked of the fate of a write, and of a deactivation, is decided if it
is for these. -/
def Act.decidesFlushes {P : Act Env → Prop}
    (hsave : ∀ k ok, Decidable (P (.save k ok)))
    (hdeact : ∀ env, Decidable (P (.deactivation env)))
    (hrest : ∀ a, (∀ k ok, a ≠ .save k ok) → (∀ env, a ≠ .deactivation env) → P a)
    (a : Act Env) : Decidable (P a) := by
  cases a with
  | save k ok => exact hsave k ok
  | deactivation env => exact hdeact env
  | _ => exact .isTrue (hrest _ (by simp) (by simp))

/-- **What a retry relies on.** A flush fails only while the host is dirty, or has
handed a later one to the driver; one that lands does so in order, unless the host
is dirty; and the instance is dropped only when no write is in flight. The copy
that a migration retains is not a flush: its seq is negative. -/
def Watched.Retries (w : Watched S Env Op) : Act Env → Prop
  | .deactivation _ => w.sys.drops = true → w.sys.host.settled = true
  | .save k ok =>
    w.sys.host.snapshotDirty = true ∨
      match w.sys.host.saves[k]?, ok with
      | some ⟨seq, _, .toLand _⟩, true => w.sys.LandsInOrder k seq
      | some ⟨seq, _, _⟩, false => seq < 0 ∨ w.sys.host.flushedAfter k = true
      | _, _ => True
  | _ => True

instance (w : Watched S Env Op) : (a : Act Env) → Decidable (w.Retries a) :=
  Act.decidesFlushes
    (fun k ok => by
      unfold Watched.Retries
      dsimp only
      rcases w.sys.host.saves[k]? with _ | ⟨q, v, _ | _ | _⟩ <;> cases ok <;> infer_instance)
    (fun env => by
      unfold Watched.Retries
      infer_instance)
    (fun a hsave hdeact => by
      cases a with
      | save k ok => exact absurd rfl (hsave k ok)
      | deactivation env => exact absurd rfl (hdeact env)
      | _ => trivial)

/-! ## The value, on its way to storage

Three places for it, in the order in which it passes through them: the object,
the encoded write, the live snapshot. -/

/-- **The last write carries what `snapshot()` returns**: it refers to an
object that reads the value, or has encoded it, or the value is live, below no
write that is still to land. -/
def Sys.Carries (s : Sys S Env Op) : Option (Save S) → Prop
  | some ⟨seq, _, .toEncode obj⟩ => 0 ≤ seq ∧ s.host.Holds obj
  | some ⟨seq, _, .toLand x⟩ => 0 ≤ seq ∧ x = s.host.snapshotValue
  | last => ∃ snap, s.store.loadSnapshot = some snap
    ∧ snap.state = s.host.snapshotValue
    ∧ (s.host.settled = true ∨ ∀ sv ∈ last, sv.seq ≤ snap.seq)

/-- What `snapshot()` returns is saved, or being saved. -/
def Sys.Saved (s : Sys S Env Op) : Prop := s.Carries s.host.saves.getLast?

/-- Nobody uses the host. -/
def Host.resting (h : Host S Env) : Prop :=
  h.activated = false
    ∨ ∃ idle, h.deactivating = some ⟨.finishing (.ok ()), idle⟩

/-- A write that is in the list after a step was there before, or has just been
issued. -/
theorem Hands.saves {s s' : Sys S Env Op} (h : Hands s s') {k : ℕ} {sv : Save S}
    (hk : s'.host.saves[k]? = some sv) :
    s.host.saves[k]? = some sv ∨ sv.pc.isEnded = false := by
  cases h with
  | marked _ hs => exact .inl (hs ▸ hk)
  | still _ hs => exact .inl (hs ▸ hk)
  | handed _ hs _ =>
    rw [hs, List.getElem?_append] at hk
    split at hk
    · exact .inl hk
    · obtain rfl := List.mem_singleton.mp (List.mem_of_getElem? hk)
      exact .inr rfl

namespace Sys.Carries

variable {s s' : Sys S Env Op} {last : Option (Save S)}

/-- A segment that leaves the value as it was leaves it carried. -/
theorem still (h : s.Carries last) (hs : s'.host.saves = s.host.saves)
    (ho : s.host.objs.Segment s'.host.objs) (hc : s'.host.cls = s.host.cls)
    (hv : s'.host.snapshotValue = s.host.snapshotValue)
    (hlive : ∀ snap, s.store.loadSnapshot = some snap →
      ∃ snap', s'.store.loadSnapshot = some snap' ∧ snap'.seq = snap.seq
        ∧ snap'.state = snap.state) : s'.Carries last := by
  have hset : s'.host.settled = s.host.settled := by
    unfold Host.settled
    rw [hs]
  have hstored : (∃ snap, s.store.loadSnapshot = some snap
      ∧ snap.state = s.host.snapshotValue
      ∧ (s.host.settled = true ∨ ∀ sv ∈ last, sv.seq ≤ snap.seq)) →
      ∃ snap, s'.store.loadSnapshot = some snap
        ∧ snap.state = s'.host.snapshotValue
        ∧ (s'.host.settled = true ∨ ∀ sv ∈ last, sv.seq ≤ snap.seq) := by
    rintro ⟨snap, hsnap, hstate, hq⟩
    obtain ⟨snap', hsnap', hseq', hstate'⟩ := hlive snap hsnap
    rw [hset, hv]
    exact ⟨snap', hsnap', hstate'.trans hstate, hseq' ▸ hq⟩
  rcases last with _ | ⟨seq, version, obj | x | ok⟩
  · exact hstored h
  · exact ⟨h.1, h.2.segment ho hc hv⟩
  · exact ⟨h.1, h.2.trans hv.symm⟩
  · exact hstored h

/-- Once no write is in flight, the value is live. -/
theorem live (h : s.Carries last) (hl : ∀ sv ∈ last, sv.pc.isEnded = true) :
    s.store.loadSnapshot.map SnapshotRead.state = some s.host.snapshotValue := by
  have hstored : (∃ snap, s.store.loadSnapshot = some snap
      ∧ snap.state = s.host.snapshotValue
      ∧ (s.host.settled = true ∨ ∀ sv ∈ last, sv.seq ≤ snap.seq)) →
      s.store.loadSnapshot.map SnapshotRead.state = some s.host.snapshotValue := by
    rintro ⟨snap, hsnap, hstate, -⟩
    rw [hsnap, ← hstate]
    rfl
  rcases last with _ | ⟨seq, version, obj | x | ok⟩
  · exact hstored h
  · exact absurd (hl _ rfl) (by simp [SavePc.isEnded])
  · exact absurd (hl _ rfl) (by simp [SavePc.isEnded])
  · exact hstored h

end Sys.Carries

/-- With no write in flight, it is enough that the value is live. -/
theorem Sys.Saved.of_settled {s : Sys S Env Op} {snap : SnapshotRead S}
    (hset : s.host.settled = true) (hsnap : s.store.loadSnapshot = some snap)
    (hstate : snap.state = s.host.snapshotValue) : s.Saved := by
  have hended : ∀ sv ∈ s.host.saves.getLast?, sv.pc.isEnded = true :=
    fun sv hsv => List.all_eq_true.mp hset sv (List.mem_of_getLast? hsv)
  unfold Sys.Saved
  revert hended
  rcases s.host.saves.getLast? with _ | ⟨seq, version, obj | x | ok⟩ <;>
    intro hended
  · exact ⟨snap, hsnap, hstate, .inl hset⟩
  · exact absurd (hended _ rfl) (by simp [SavePc.isEnded])
  · exact absurd (hended _ rfl) (by simp [SavePc.isEnded])
  · exact ⟨snap, hsnap, hstate, .inl hset⟩

/-- An activation drops no instance. -/
theorem Sys.inst_actStep {cfg : HostConfig S Env Op} {s s' : Sys S Env Op}
    {env : Env} {ok : Bool} (hs : s.actStep cfg env ok = some s')
    (hi : s'.host.inst = none) : s.host.inst = none := by
  have hf := Sys.flow_actStep hs
  have hi : s'.flow.inst = none := hi
  show s.flow.inst = none
  revert hf hi
  generalize s'.flow = f
  intro hf hi
  cases hf with
  | opening hc =>
    cases hc with
    | earlier => exact hi
    | now => exact absurd hi (by simp)
  | activated hc =>
    cases hc with
    | earlier => exact hi
    | now => exact absurd (show some s.flow.activation = none from hi) (by simp)
  | replayed hp => rw [HostFlow.enqueueAll_frame] at hi; exact hi
  | _ => exact hi

/-- A flush saves the value. -/
theorem Sys.Saved.handed {s : Sys S Env Op} {version : Version} {obj : ℕ}
    {old : List (Save S)} {seq : ℤ}
    (hs : s.host.saves = old ++ [⟨seq, version, .toEncode obj⟩]) (h0 : 0 ≤ seq)
    (ho : s.host.Holds obj) : s.Saved := by
  unfold Sys.Saved
  rw [hs, List.getLast?_append]
  exact ⟨h0, ho⟩

/-- The last write, once one of them has moved. -/
theorem getLast?_set {α : Type} {xs : List α} {k : ℕ} (hk : k < xs.length) (x : α) :
    (xs.set k x).getLast? = if k + 1 = xs.length then some x else xs.getLast? := by
  rw [List.getLast?_eq_getElem?, List.getLast?_eq_getElem?, List.length_set,
    List.getElem?_set]
  by_cases h : k + 1 = xs.length
  · rw [if_pos h, if_pos (by omega), if_pos hk]
  · rw [if_neg h, if_neg (by omega)]

namespace Sys

variable {s : Sys S Env Op} {k : ℕ} {seq : ℤ} {version : Version}

/-- Some write is in flight. -/
theorem settled_eq_false {sv : Save S} (hk : s.host.saves[k]? = some sv)
    (hsv : sv.pc.isEnded = false) : s.host.settled = false := by
  by_contra hset
  have hset : s.host.settled = true := by simpa using hset
  have := List.all_eq_true.mp hset sv (List.mem_of_getElem? hk)
  exact absurd this (by rw [hsv]; simp)

/-- What the last write carries, it goes on carrying while another one
moves. -/
theorem Carries.other {s' : Sys S Env Op} {last : Option (Save S)}
    (h : s.Carries last) (hset : s.host.settled = false)
    (objs : s'.host.objs = s.host.objs) (cls : s'.host.cls = s.host.cls)
    (hlive : ∀ snap, s.store.loadSnapshot = some snap →
      (∀ sv ∈ last, sv.pc.isEnded = true ∧ sv.seq ≤ snap.seq) →
      s'.store.loadSnapshot = some snap) : s'.Carries last := by
  have hv : s'.host.snapshotValue = s.host.snapshotValue :=
    Host.snapshotValue_eq cls (congrArg Objects.read objs)
  rcases last with _ | ⟨q, v, obj | x | ok⟩
  · obtain ⟨snap, hsnap, hstate, -⟩ := h
    exact ⟨snap, hlive snap hsnap (by simp), hstate.trans hv.symm, .inr (by simp)⟩
  · refine ⟨h.1, ?_⟩
    obtain ⟨hlt, hval, hown⟩ := h.2
    exact ⟨objs ▸ hlt, by rw [objs, hv, hval], fun he => cls ▸ hown (objs ▸ he)⟩
  · exact ⟨h.1, h.2.trans hv.symm⟩
  · obtain ⟨snap, hsnap, hstate, hq⟩ := h
    have hq := hq.resolve_left (by rw [hset]; simp)
    refine ⟨snap, hlive snap hsnap (fun sv hsv => ?_), hstate.trans hv.symm, .inr hq⟩
    obtain rfl := Option.some.inj hsv
    exact ⟨rfl, hq _ rfl⟩

/-- The driver encodes what the object reads. -/
theorem Saved.encode (h : s.Saved) {obj : ℕ}
    (hk : s.host.saves[k]? = some ⟨seq, version, .toEncode obj⟩) :
    (s.setSave k ⟨seq, version, .toLand (s.host.objs.val obj)⟩).Saved := by
  have hlt := (List.getElem?_eq_some_iff.mp hk).1
  unfold Saved at h ⊢
  show Carries _ (s.host.saves.set k _).getLast?
  rw [getLast?_set hlt]
  split
  · next hlast =>
    rw [List.getLast?_eq_getElem?, ← hlast, Nat.add_sub_cancel, hk] at h
    exact ⟨h.1, h.2.val⟩
  · exact h.other (settled_eq_false hk rfl) rfl rfl (fun _ hsnap _ => hsnap)

/-- The driver lands what it has encoded, in order. -/
theorem Saved.land (h : s.Saved) (hrow : s.store.row ≠ none) {x : S}
    (hk : s.host.saves[k]? = some ⟨seq, version, .toLand x⟩)
    (hg : s.LandsInOrder k seq) :
    ({ s with store := s.store.saveSnapshot seq version x }.setSave k
      ⟨seq, version, .ended true⟩).Saved := by
  have hlt := (List.getElem?_eq_some_iff.mp hk).1
  unfold Saved at h ⊢
  show Carries _ (s.host.saves.set k _).getLast?
  rw [getLast?_set hlt]
  split
  · next hlast =>
    -- the last write makes the value live
    have hget : s.host.saves.getLast? = some ⟨seq, version, .toLand x⟩ := by
      rw [List.getLast?_eq_getElem?, ← hlast, Nat.add_sub_cancel, hk]
    rw [hget] at h
    obtain ⟨h0, rfl⟩ := h
    have hmax := hg.resolve_left (by omega)
    rw [hget] at hmax
    obtain ⟨r, hr⟩ := Option.ne_none_iff_exists'.mp hrow
    refine ⟨_, ActorStore.loadSnapshot_saveSnapshot hr h0 (hmax hlast) version _,
      rfl, .inr (fun sv hsv => ?_)⟩
    obtain rfl := Option.some.inj hsv
    exact le_rfl
  · -- an earlier one lands below it
    refine h.other (settled_eq_false hk rfl) rfl rfl (fun snap hsnap hlast => ?_)
    refine ActorStore.loadSnapshot_below hsnap ?_ version x
    rcases hg with hneg | hg
    · exact lt_of_lt_of_le hneg (ActorStore.loadSnapshot_spec hsnap).1
    · cases hl : s.host.saves.getLast? with
      | none =>
        rw [List.getLast?_eq_none_iff] at hl
        exact absurd hlt (by rw [hl]; simp)
      | some sv =>
        obtain ⟨hend, hq⟩ := hlast sv hl
        rw [hl] at hg
        obtain ⟨q, v, obj | x | ok⟩ := sv
        · exact absurd hend (by simp [SavePc.isEnded])
        · exact absurd hend (by simp [SavePc.isEnded])
        · exact lt_of_lt_of_le hg hq

end Sys

theorem Host.flushedAfter_iff {h : Host S Env} {k : ℕ} : h.flushedAfter k = true
    ↔ ∃ j sv, k < j ∧ h.saves[j]? = some sv ∧ 0 ≤ sv.seq := by
  unfold Host.flushedAfter
  rw [List.any_eq_true]
  constructor
  · rintro ⟨sv, hsv, h0⟩
    obtain ⟨i, hi⟩ := List.mem_iff_getElem?.mp hsv
    rw [List.getElem?_drop] at hi
    exact ⟨k + 1 + i, sv, by omega, hi, of_decide_eq_true h0⟩
  · rintro ⟨j, sv, hlt, hj, h0⟩
    refine ⟨sv, List.mem_iff_getElem?.mpr ⟨j - (k + 1), ?_⟩, decide_eq_true h0⟩
    rw [List.getElem?_drop, Nat.add_sub_cancel' hlt]
    exact hj

/-! ## The invariant

A host that is not dirty carries its value, unless something changed the state
behind the mark; and a write that failed is followed by another, or by the
mark. -/

/-- **The value is carried to storage**, and no flush that failed was the
last.

The heart of it is `value`: a host that does not mean to write again has
nothing that is not written, or on the way. The other fields are what keeps it
so: that a load was not overtaken, that a host nobody uses has no stray write
which could land later, and that a failed flush is made up for by another. -/
structure Carrying (w : Watched S Env Op) : Prop where
  /-- What an activation has loaded is still live. -/
  loaded : ∀ snap, w.sys.host.loading = some snap →
    ∃ snap', w.sys.store.loadSnapshot = some snap' ∧ snap'.seq = snap.seq
      ∧ snap'.state = snap.state
  /-- While nobody uses the host, the only write in flight is the one that its
  activation awaits. -/
  quiet : w.sys.host.resting → ∀ k sv, w.sys.host.saves[k]? = some sv →
    sv.pc.isEnded = true ∨ w.sys.host.awaited = some k
  /-- What `snapshot()` returns is saved, or being saved, unless the host is
  marked dirty or something has changed the state behind the mark. -/
  value : w.sys.host.snapshotDirty = false → w.unsaved = false → w.sys.Saved
  /-- A flush that failed has another after it, or the host is dirty. -/
  followed : w.sys.host.snapshotDirty = false → ∀ (k : ℕ) (sv : Save S),
    w.sys.host.saves[k]? = some sv → 0 ≤ sv.seq → sv.pc = .ended false →
    w.sys.host.flushedAfter k = true
  /-- The write that a deactivation awaits is the last. -/
  final : ∀ k idle, w.sys.host.deactivating = some ⟨.flush k, idle⟩ →
    k + 1 = w.sys.host.saves.length
      ∧ ∃ sv, w.sys.host.saves[k]? = some sv ∧ 0 ≤ sv.seq
  /-- A deactivation does not end because its flush has failed. -/
  flushed : ∀ e idle,
    w.sys.host.deactivating ≠ some ⟨.finishing (.error e), idle⟩

/-- A step that constructs no instance. -/
def Carried.Aside (w : Watched S Env Op) (a : Act Env) : Prop :=
  ∀ env snap r, a = .activation env true →
    w.sys.host.activating ≠ some (.loadFence snap r)

/-- A write that is issued does not undo what was handed over later. -/
theorem Host.flushedAfter_append {h h' : Host S Env} {k : ℕ}
    (hk : h.flushedAfter k = true) {new : List (Save S)}
    (hs : h'.saves = h.saves ++ new) : h'.flushedAfter k = true := by
  obtain ⟨j, sv, hlt, hj, h0⟩ := Host.flushedAfter_iff.mp hk
  refine Host.flushedAfter_iff.mpr ⟨j, sv, hlt, ?_, h0⟩
  rw [hs, List.getElem?_append_left (List.getElem?_eq_some_iff.mp hj).1]
  exact hj

/-- What a deactivation does beside the state is to begin to await the worker. -/
theorem Beside.deactivating_cases {s s' : Sys S Env Op} (h : Beside s s')
    {d : Deactivation S} (hd : s'.host.deactivating = some d) :
    s.host.deactivating = some d ∨ ∃ g, d.pc = .awaitWorker g := by
  rcases h.deactivating with he | ⟨-, g, idle, he⟩
  · exact .inl (he ▸ hd)
  · exact .inr ⟨g, by rw [← Option.some.inj (he.symm.trans hd)]⟩

/-- An instance that is constructed does not clear the mark. -/
theorem Sys.dirty_construct {cfg : HostConfig S Env Op} {s s' : Sys S Env Op} {env : Env}
    {snap : Option (SnapshotRead S)} {r : Resolved S Env}
    (hpc : s.host.activating = some (.loadFence snap r))
    (hs : s.actStep cfg env true = some s') (hd : s'.host.snapshotDirty = false) :
    s.host.snapshotDirty = false := by
  obtain ⟨pc', hpc', hseg⟩ := Sys.actSegment hs
  obtain rfl := Option.some.inj (hpc.symm.trans hpc')
  cases hseg with
  | failed e ht => cases ht
  | blank => exact hd
  | migrates =>
    unfold Sys.beginMigrate at hd
    split at hd
    · exact absurd hd (by simp [Sys.setActivating])
    · exact hd
  | loaded =>
    rw [(Ran.beginReplay _ env).snapshotDirty] at hd
    exact hd

/-- **A deactivation that flushes issues the last write**, and awaits it. -/
theorem Sys.saves_of_flush {s s' : Sys S Env Op} {env : Env} {k : ℕ} {idle : Bool}
    (hs : s.deactStep env = some s')
    (hd : s'.host.deactivating = some ⟨.flush k, idle⟩) :
    k = s.host.saves.length ∧ ∃ version obj, s'.host.saves = s.host.saves
      ++ [⟨if s.host.cls.isEs then s.host.currentSeq else 0, version, .toEncode obj⟩] := by
  have hhook : ∀ t : Sys S Env Op, ∀ i,
      (t.beginOnDeactivate env i).host.deactivating ≠ some ⟨.flush k, idle⟩ := by
    intro t i
    unfold Sys.beginOnDeactivate
    split <;> simp
  obtain ⟨pc, i, hdeact, hseg⟩ := Sys.deactSegment hs
  cases hseg with
  | flush =>
    rw [Sys.deactivating_setDeactivating, Option.some.injEq, Deactivation.mk.injEq,
      DeactPc.flush.injEq] at hd
    exact ⟨hd.1.symm, _, _, rfl⟩
  | unflushed | flushed => exact absurd hd (hhook _ _)
  | _ => exact absurd hd (by simp)

/-- **A deactivation fails by its final flush only.** -/
theorem Sys.saveResult_of_failed {s s' : Sys S Env Op} {env : Env} {e : HostError}
    {idle : Bool} (hs : s.deactStep env = some s')
    (hd : s'.host.deactivating = some ⟨.finishing (.error e), idle⟩) :
    ∃ k i, s.host.deactivating = some ⟨.flush k, i⟩
      ∧ s.host.saveResult k = some false := by
  have hhook : ∀ t : Sys S Env Op, ∀ i,
      (t.beginOnDeactivate env i).host.deactivating
        ≠ some ⟨.finishing (.error e), idle⟩ := by
    intro t i
    unfold Sys.beginOnDeactivate
    split <;> simp
  obtain ⟨pc, i, hdeact, hseg⟩ := Sys.deactSegment hs
  cases hseg with
  | flushFailed hr => exact ⟨_, i, hdeact, hr⟩
  | unflushed | flushed => exact absurd hd (hhook _ _)
  | _ => exact absurd hd (by simp)

namespace Carrying

open Carried (Aside)

variable [DecidableEq S] {cfg : HostConfig S Env Op} {w : Watched S Env Op}
  {s' : Sys S Env Op} {a : Act Env}

omit [DecidableEq S] in
/-- A new host. -/
theorem init (cfg : HostConfig S Env Op) (store : ActorStore S) :
    Carrying (Watched.init cfg store) where
  loaded snap h := absurd h (by simp [Host.loading, Watched.init, Sys.init, Host.init])
  quiet _ k sv h := absurd h (by simp [Watched.init, Sys.init, Host.init])
  value _ h := absurd h (by simp [Watched.init])
  followed _ k sv h := absurd h (by simp [Watched.init, Sys.init, Host.init])
  final k idle h := absurd h (by simp [Watched.init, Sys.init, Host.init])
  flushed e idle h := absurd h (by simp [Watched.init, Sys.init, Host.init])

omit [DecidableEq S] in
/-- A step that leaves the mark alone, and issues at most a write. -/
theorem followed_append (h : Carrying w) (new : List (Save S))
    (hd : s'.host.snapshotDirty = false → w.sys.host.snapshotDirty = false)
    (hs : s'.host.saves = w.sys.host.saves ++ new)
    (hnew : ∀ sv ∈ new, sv.pc.isEnded = false) (hd' : s'.host.snapshotDirty = false)
    (k : ℕ) (sv : Save S) (hk : s'.host.saves[k]? = some sv) (h0 : 0 ≤ sv.seq)
    (hpc : sv.pc = .ended false) : s'.host.flushedAfter k = true := by
  rw [hs, List.getElem?_append] at hk
  split at hk
  · exact Host.flushedAfter_append (h.followed (hd hd') k sv hk h0 hpc) hs
  · exact absurd (hnew sv (List.mem_of_getElem? hk)) (by simp [hpc, SavePc.isEnded])

omit [DecidableEq S] in
/-- A flush follows all that came before. -/
theorem followed_hands (h : Carrying w) (hh : Hands w.sys s')
    (h0 : 0 ≤ s'.host.currentSeq) (hd : s'.host.snapshotDirty = false) (k : ℕ)
    (sv : Save S) (hk : s'.host.saves[k]? = some sv) (hseq : 0 ≤ sv.seq)
    (hpc : sv.pc = .ended false) : s'.host.flushedAfter k = true := by
  cases hh with
  | marked hd' _ => exact absurd hd (by rw [hd']; simp)
  | still hd' hs _ _ =>
    exact h.followed_append [] (fun hd => hd' ▸ hd) (by rw [hs, List.append_nil])
      (fun _ hsv => absurd hsv List.not_mem_nil) hd k sv hk hseq hpc
  | @handed version obj _ hs _ =>
    refine Host.flushedAfter_iff.mpr ⟨w.sys.host.saves.length, _, ?_,
      hs ▸ List.getElem?_concat_length, ?_⟩
    · rw [hs, List.getElem?_append] at hk
      split at hk
      · next hlt => exact hlt
      · obtain rfl := List.mem_singleton.mp (List.mem_of_getElem? hk)
        exact absurd hpc (by simp)
    · dsimp only
      split
      · exact h0
      · exact le_rfl

/-- The value after a step that constructs no instance. -/
theorem value_next (h : Carrying w) (ha : Aside w a) (hh : Hands w.sys s')
    (hw : Writes w.sys.store s'.store) (h0 : 0 ≤ s'.host.currentSeq) :
    (w.next a s').sys.host.snapshotDirty = false →
      (w.next a s').unsaved = false → (w.next a s').sys.Saved := by
  intro hd hu
  have hd : s'.host.snapshotDirty = false := hd
  have hu : w.unsavedAfter a s' = false := hu
  cases hh with
  | marked hd' => exact absurd hd (by rw [hd']; simp)
  | handed _ hs ho =>
    refine Sys.Saved.handed hs ?_ ho
    split
    · exact h0
    · exact le_rfl
  | still hd' hs ho hc =>
    have hu' : (w.unsaved || decide (s'.host.snapshotValue
        ≠ w.sys.host.snapshotValue)) = false := by
      unfold Watched.unsavedAfter at hu
      rw [if_neg (by rw [hd]; simp)] at hu
      split at hu
      · next hr _ => exact absurd hr (ha _ _ _ rfl)
      · next hr _ => exact absurd hr (ha _ _ _ rfl)
      · rwa [hs, if_neg (lt_irrefl _)] at hu
    obtain ⟨hu₁, hu₂⟩ := Bool.or_eq_false_iff.mp hu'
    have hv : s'.host.snapshotValue = w.sys.host.snapshotValue := by
      simpa using hu₂
    have hsaved := h.value (hd' ▸ hd) hu₁
    show s'.Carries s'.host.saves.getLast?
    rw [hs]
    exact hsaved.still hs ho hc hv (fun snap => hw.live)

/-- A step that concerns neither the state nor the writes. -/
theorem frame (h : Carrying w) (ha : Aside w a) (hw : Writes w.sys.store s'.store)
    (h0 : 0 ≤ s'.host.currentSeq) (hr : Ran w.sys s')
    (activated : s'.host.activated = w.sys.host.activated)
    (awaited : s'.host.awaited = w.sys.host.awaited)
    (loading : s'.host.loading = w.sys.host.loading)
    (deactivating : ∀ d, s'.host.deactivating = some d →
      w.sys.host.deactivating = some d ∨ ∃ g, d.pc = .awaitWorker g) :
    Carrying (w.next a s') where
  loaded snap hl := by
    obtain ⟨snap', hsnap', hseq, hstate⟩ := h.loaded snap (loading ▸ hl)
    obtain ⟨snap'', hsnap'', hseq', hstate'⟩ := hw.live hsnap'
    exact ⟨snap'', hsnap'', hseq'.trans hseq, hstate'.trans hstate⟩
  quiet hrest k sv hk := by
    rw [show (w.next a s').sys.host.awaited = _ from awaited]
    refine h.quiet ?_ k sv (hr.saves ▸ hk)
    rcases hrest with hrest | ⟨idle, hrest⟩
    · exact .inl (activated ▸ hrest)
    · exact .inr ⟨idle, (deactivating _ hrest).resolve_right (by simp)⟩
  value := h.value_next ha hr.hands hw h0
  followed := h.followed_hands hr.hands h0
  final k idle hd := by
    show k + 1 = s'.host.saves.length ∧ ∃ sv, s'.host.saves[k]? = some sv ∧ 0 ≤ sv.seq
    rw [hr.saves]
    exact h.final k idle ((deactivating _ hd).resolve_right (by simp))
  flushed e idle hd := h.flushed e idle ((deactivating _ hd).resolve_right (by simp))

/-- A step on a host in use, whose deactivation, if any, awaits the worker. -/
theorem inUse (h : Carrying w) (ha : Aside w a) (hh : Hands w.sys s')
    (hw : Writes w.sys.store s'.store) (h0 : 0 ≤ s'.host.currentSeq)
    (hact : w.sys.host.activated = true)
    (hd : ∀ d, w.sys.host.deactivating = some d → ∃ g, d.pc = .awaitWorker g)
    (activated : s'.host.activated = w.sys.host.activated)
    (activating : s'.host.activating = w.sys.host.activating)
    (deactivating : s'.host.deactivating = w.sys.host.deactivating) :
    Carrying (w.next a s') := by
  have hawait : ∀ d, s'.host.deactivating = some d → ∃ g, d.pc = .awaitWorker g :=
    fun d he => hd d (deactivating ▸ he)
  exact
    { loaded := fun snap hload => by
        have hload : s'.host.loading = some snap := hload
        obtain ⟨snap', hsnap', hseq, hstate⟩ := h.loaded snap (by
          rw [← hload]
          unfold Host.loading
          rw [activating])
        obtain ⟨snap'', hsnap'', hseq', hstate'⟩ := hw.live hsnap'
        exact ⟨snap'', hsnap'', hseq'.trans hseq, hstate'.trans hstate⟩
      quiet := fun hrest => by
        rcases hrest with hrest | ⟨idle, hrest⟩
        · exact absurd hrest (by
            show s'.host.activated ≠ false
            rw [activated, hact]
            simp)
        · obtain ⟨g, hg⟩ := hawait _ hrest
          exact absurd hg (by simp)
      value := h.value_next ha hh hw h0
      followed := h.followed_hands hh h0
      final := fun k idle he => by
        obtain ⟨g, hg⟩ := hawait _ he
        exact absurd hg (by simp)
      flushed := fun e idle he => by
        obtain ⟨g, hg⟩ := hawait _ he
        exact absurd hg (by simp) }

/-- An instance that is constructed from a snapshot starts with what is
live. -/
theorem value_construct (h : Carrying w) {env : Env} {snap : SnapshotRead S}
    {r : Resolved S Env}
    (hpc : w.sys.host.activating = some (.loadFence (some snap) r))
    (hs : w.sys.actStep cfg env true = some s')
    (hended : ∀ (k : ℕ) (sv : Save S), w.sys.host.saves[k]? = some sv →
      sv.pc.isEnded = true)
    (hd : s'.host.snapshotDirty = false)
    (hu : w.unsavedAfter (.activation env true) s' = false) : s'.Saved := by
  have hw := Sys.writes_actStep hs
  unfold Watched.unsavedAfter at hu
  rw [if_neg (by rw [hd]; simp), hpc] at hu
  obtain ⟨hm, hv⟩ := Bool.or_eq_false_iff.mp hu
  have hv : s'.host.snapshotValue = snap.state := by simpa using hv
  have hsaves : s'.host.saves = w.sys.host.saves := by
    obtain ⟨pc, hpc', hseg⟩ := Sys.actSegment hs
    obtain rfl := Option.some.inj (hpc.symm.trans hpc')
    cases hseg with
    | failed e ht => cases ht
    | migrates _ hm' => exact absurd (hm.symm.trans hm') (by simp)
    | loaded => exact (Ran.beginReplay _ env).saves
  have hended : ∀ sv ∈ s'.host.saves, sv.pc.isEnded = true := by
    intro sv hsv
    obtain ⟨k, hk⟩ := List.mem_iff_getElem?.mp (hsaves ▸ hsv)
    exact hended k sv hk
  obtain ⟨snap', hsnap', -, hstate⟩ := h.loaded snap (by
    unfold Host.loading
    rw [hpc])
  obtain ⟨snap'', hsnap'', -, hstate'⟩ := hw.live hsnap'
  exact .of_settled (List.all_eq_true.mpr hended) hsnap''
    ((hstate'.trans hstate).trans hv.symm)

/-- A segment of an activation. While the host is not activated, nothing is
in flight but what the activation awaits. -/
theorem of_actStep {env : Env} {ok : Bool} (h : Carrying w)
    (hl : Lifecycle w.sys.flow.toLife) (h0 : 0 ≤ s'.host.currentSeq)
    (hs : w.sys.actStep cfg env ok = some s') :
    Carrying (w.next (.activation env ok) s') := by
  have hw := Sys.writes_actStep hs
  obtain ⟨pc, hpc, hseg⟩ := Sys.actSegment hs
  by_cases hact : w.sys.host.activated = true
  · -- an activated host only reads its inbox
    have ht := hl.through hact hpc
    have hb := Sys.beside_actStep hl hpc ht hs
    have hside : Aside w (.activation env ok) := by
      intro env' snap r _ he
      obtain rfl := Option.some.inj (hpc.symm.trans he)
      exact absurd ht (by simp [ActPc.through])
    exact h.frame hside hw h0 (.beside hb) hb.activated hb.awaited_eq.1 hb.awaited_eq.2
      (fun d hd => hb.deactivating_cases hd)
  have hact : w.sys.host.activated = false := by simpa using hact
  have hp := Sys.proceeds_actStep hl hs
  have ho := Sys.opens_actStep hs
  have hd : ∀ d, s'.host.deactivating ≠ some d := by
    intro d hd
    rw [ho.deactivating] at hd
    exact absurd (hl.activated_of_deact hd) (by rw [hact]; simp)
  -- whatever was in flight has ended
  have hended : ∀ (k : ℕ) (sv : Save S), w.sys.host.saves[k]? = some sv →
      sv.pc.isEnded = true := by
    intro k sv hk
    rcases h.quiet (.inl hact) k sv hk with he | he
    · exact he
    · have hr := hp.ended k he
      unfold Host.saveResult at hr
      rw [hk] at hr
      obtain ⟨seq, version, obj | x | o⟩ := sv
      · exact absurd rfl hr
      · exact absurd rfl hr
      · rfl
  have hloaded : ∀ snap, s'.host.loading = some snap →
      ∃ snap', s'.store.loadSnapshot = some snap' ∧ snap'.seq = snap.seq
        ∧ snap'.state = snap.state := by
    intro snap hsnap
    have hfrom : ∃ snap', w.sys.store.loadSnapshot = some snap'
        ∧ snap'.seq = snap.seq ∧ snap'.state = snap.state := by
      rcases hp.loading snap hsnap with he | he
      · exact h.loaded snap he
      · exact ⟨snap, he, rfl, rfl⟩
    obtain ⟨snap', hsnap', hseq, hstate⟩ := hfrom
    obtain ⟨snap'', hsnap'', hseq', hstate'⟩ := hw.live hsnap'
    exact ⟨snap'', hsnap'', hseq'.trans hseq, hstate'.trans hstate⟩
  have hquiet : ∀ k sv, s'.host.saves[k]? = some sv →
      sv.pc.isEnded = true ∨ s'.host.awaited = some k := by
    intro k sv hk
    rcases hp.awaits with ⟨hsv, -⟩ | ⟨sv', -, hsv, haw⟩
    · exact .inl (hended k sv (hsv ▸ hk))
    · rw [hsv, List.getElem?_append] at hk
      split at hk
      · exact .inl (hended k sv hk)
      · refine .inr (haw.trans (congrArg some ?_))
        have hlt := (List.getElem?_eq_some_iff.mp hk).1
        rw [List.length_singleton] at hlt
        omega
  have hbuild : (s'.host.snapshotDirty = false → w.unsavedAfter (.activation env ok) s' = false
      → s'.Saved) → (s'.host.snapshotDirty = false → ∀ (k : ℕ) (sv : Save S),
        s'.host.saves[k]? = some sv → 0 ≤ sv.seq → sv.pc = .ended false →
        s'.host.flushedAfter k = true) → Carrying (w.next (.activation env ok) s') :=
    fun value followed =>
      { loaded := hloaded
        quiet := fun _ => hquiet
        value
        followed
        final := fun k idle he => absurd he (hd _)
        flushed := fun e idle he => hd _ he }
  by_cases hc : ok = true ∧ ∃ snap r, pc = .loadFence snap r
  · -- the instance is constructed
    obtain ⟨rfl, snap, r, rfl⟩ := hc
    refine hbuild (fun hdirty hu => ?_) (fun hdirty => ?_)
    · cases snap with
      | none =>
        unfold Watched.unsavedAfter at hu
        rw [if_neg (by rw [hdirty]; simp), hpc] at hu
        exact absurd hu (by simp)
      | some snap => exact h.value_construct hpc hs hended hdirty hu
    · rcases hp.awaits with ⟨hsv, -⟩ | ⟨sv', hpc', hsv, -⟩
      · exact h.followed_append [] (Sys.dirty_construct hpc hs) (by rw [hsv, List.append_nil])
          (fun _ hsv => absurd hsv List.not_mem_nil) hdirty
      · refine h.followed_append [sv'] (Sys.dirty_construct hpc hs) hsv (fun sv hsv => ?_)
          hdirty
        rw [List.mem_singleton.mp hsv]
        exact hpc'
  · have hh : Hands w.sys s' := by
      by_cases hload : ∃ snap r, pc = .loadFence snap r
      · obtain ⟨snap, r, rfl⟩ := hload
        have hok : ok = false := by
          by_contra hok
          exact hc ⟨by simpa using hok, snap, r, rfl⟩
        cases hseg with
        | failed e =>
          have hr : Ran w.sys (w.sys.activationFailed e) := .aside rfl rfl rfl rfl rfl rfl
          exact hr.hands
        | blank hok' | migrates hok' | loaded hok' =>
          exact absurd (hok.symm.trans hok') (by simp)
      · refine hp.hands (fun snap r he => hload ⟨snap, r, ?_⟩)
        exact Option.some.inj (hpc.symm.trans he)
    refine hbuild (h.value_next (fun env' snap r he hload => hc ?_) hh hw h0)
      (h.followed_hands hh h0)
    obtain rfl := Option.some.inj (hpc.symm.trans hload)
    exact ⟨(Act.activation.inj he).2, snap, r, rfl⟩

/-- A segment of a turn: the worker is alive on a host in use. -/
theorem of_workerStep {g : ℕ} {env : Env} {ok : Bool} (h : Carrying w)
    (hl : Lifecycle w.sys.flow.toLife) (h0 : 0 ≤ s'.host.currentSeq)
    (hs : w.sys.workerStep cfg g env ok = some s') :
    Carrying (w.next (.worker g env ok) s') := by
  have ht := Sys.turnPart_workerStep hs
  have hg := Sys.alive_of_workerStep hs
  exact h.inUse (fun _ _ _ he => absurd he (by simp)) ht.hands
    (Sys.writes_workerStep hs) h0 (hl.alive g hg).1 (fun d hd => hl.awaits hg hd)
    ht.activated ht.activating ht.deactivating

/-- The debounce timer fires on a host in use. -/
theorem of_snapshotFire (h : Carrying w) (hf : Flushable w.sys)
    (h0 : 0 ≤ s'.host.currentSeq) (hs : w.sys.snapshotFire = some s') :
    Carrying (w.next .snapshotFire s') := by
  have hside : Aside w .snapshotFire := fun _ _ _ he => absurd he (by simp)
  unfold Sys.snapshotFire at hs
  split at hs
  · next ht =>
    obtain ⟨hact, hd⟩ := hf.timer ht
    dsimp only at hs
    split at hs <;> obtain rfl := Option.some.inj hs
    · exact h.inUse hside
        (.flush { w.sys.host with snapshotTimer := false } rfl rfl rfl rfl) .nothing
        h0 hact hd rfl rfl rfl
    · exact h.inUse hside (.still rfl rfl (.apply _ .keep) rfl) .nothing h0 hact hd
        rfl rfl rfl
  · exact absurd hs (by simp)

/-- The deactivation is over: nothing has changed since the instance was
dropped. -/
theorem of_finishing {env : Env} {o : Except HostError Unit} {idle : Bool}
    (h : Carrying w) (h0 : 0 ≤ s'.host.currentSeq)
    (hd : w.sys.host.deactivating = some ⟨.finishing o, idle⟩)
    (hs : w.sys.deactStep env = some s') :
    Carrying (w.next (.deactivation env) s') := by
  have hside : Aside w (.deactivation env) := fun _ _ _ he => absurd he (by simp)
  obtain ⟨⟩ | ⟨⟨⟩⟩ := o
  · exact absurd hd (h.flushed _ idle)
  have hrest : w.sys.host.resting := .inr ⟨idle, hd⟩
  obtain ⟨pc, i, hd', hseg⟩ := Sys.deactSegment hs
  obtain rfl := congrArg Deactivation.pc (Option.some.inj (hd.symm.trans hd'))
  cases hseg
  exact
    { loaded := h.loaded
      quiet := fun _ => h.quiet hrest
      value := h.value_next hside (.still rfl rfl (.apply _ .keep) rfl) .nothing h0
      followed := h.followed_hands (.still rfl rfl (.apply _ .keep) rfl) h0
      final := fun k idle' he => absurd he (by simp [Watched.next])
      flushed := fun e idle' he => absurd he (by simp [Watched.next]) }

/-- A segment of a deactivation. -/
theorem of_deactStep {env : Env} (h : Carrying w) (hl : Lifecycle w.sys.flow.toLife)
    (hf : Flushable w.sys) (hg : w.Retries (.deactivation env))
    (hs : w.sys.deactStep env = some s') :
    Carrying (w.next (.deactivation env) s') := by
  have hside : Aside w (.deactivation env) := fun _ _ _ he => absurd he (by simp)
  have he := Sys.ends_deactStep hs
  have hst := Sys.store_deactStep hs
  have hw : Writes w.sys.store s'.store := hst ▸ .nothing
  have h0 : 0 ≤ s'.host.currentSeq := he.currentSeq ▸ hf.seq
  by_cases hfin : ∃ o idle, w.sys.host.deactivating = some ⟨.finishing o, idle⟩
  · obtain ⟨o, idle, hd⟩ := hfin
    exact h.of_finishing h0 hd hs
  obtain ⟨pc, idle, hd, -⟩ := Sys.deactSegment hs
  have hact : s'.host.activated = true := by
    rcases he.activated with ha | ⟨-, -, hdone⟩
    · exact ha.trans (hl.activated_of_deact hd)
    · exact absurd hdone hfin
  have hi : w.sys.host.inst ≠ none := by
    refine hl.inst_ne_none (hl.activated_of_deact hd) (fun idle he => hfin ?_)
    exact ⟨_, idle, he⟩
  exact
    { loaded := fun snap hsnap => by
        have hsnap : s'.host.loading = some snap := hsnap
        show ∃ snap', s'.store.loadSnapshot = some snap' ∧ _
        rw [hst]
        refine h.loaded snap ?_
        rw [← hsnap]
        unfold Host.loading
        rw [he.activating]
      quiet := fun hrest k sv hk => by
        rcases hrest with hrest | ⟨idle, hrest⟩
        · exact absurd (hact.symm.trans hrest) (by simp)
        · -- the instance has been dropped
          rcases he.inst with ⟨-, hnot⟩ | ⟨-, hsaves, -, hdrop⟩
          · exact absurd hrest (hnot idle)
          · refine .inl (List.all_eq_true.mp (hg (hdrop hi)) sv ?_)
            exact List.mem_of_getElem? (hsaves ▸ hk)
      value := h.value_next hside he.hands hw h0
      followed := h.followed_hands he.hands h0
      final := fun k idle hd' => by
        obtain ⟨rfl, version, obj, hsaves⟩ := Sys.saves_of_flush hs hd'
        show _ + 1 = s'.host.saves.length ∧ ∃ sv, s'.host.saves[_]? = some sv ∧ _
        rw [hsaves]
        refine ⟨by rw [List.length_append, List.length_singleton], _,
          List.getElem?_concat_length, ?_⟩
        dsimp only
        split
        · exact hf.seq
        · exact le_rfl
      flushed := fun e idle hd' => by
        -- the last write has failed, and no flush has followed it
        obtain ⟨k, i, hk, hr⟩ := Sys.saveResult_of_failed hs hd'
        obtain ⟨hlast, sv, hsv, hseq⟩ := h.final k i hk
        have hdirty := hf.clean _ hk (by simp)
        have hpc : sv.pc = .ended false := by
          unfold Host.saveResult at hr
          rw [hsv] at hr
          obtain ⟨seq, version, obj | x | ok⟩ := sv
          · exact absurd hr (by simp)
          · exact absurd hr (by simp)
          · exact congrArg SavePc.ended (Option.some.inj hr)
        obtain ⟨j, sv', hlt, hj, -⟩ :=
          Host.flushedAfter_iff.mp (h.followed hdirty k sv hsv hseq hpc)
        have := (List.getElem?_eq_some_iff.mp hj).1
        omega }

/-! ### The driver

The driver moves on with one write: it encodes it, lands it, or fails it. -/

omit [DecidableEq S] in
/-- While something is loaded, or there is no instance, no write is in
flight. -/
theorem ended_of_unused (h : Carrying w) (hl : Lifecycle w.sys.flow.toLife)
    (hu : w.sys.host.inst = none ∨ ∃ snap, w.sys.host.loading = some snap) {k : ℕ}
    {sv : Save S} (hk : w.sys.host.saves[k]? = some sv) : sv.pc.isEnded = true := by
  have hunused : w.sys.host.resting ∧ w.sys.host.awaited = none := by
    rcases hu with hi | ⟨snap, hload⟩
    · refine ⟨?_, ?_⟩
      · by_contra hrest
        obtain ⟨hact, hd⟩ := not_or.mp hrest
        refine hl.inst_ne_none (by simpa using hact) (fun idle hd' => hd ⟨idle, hd'⟩) hi
      · -- an activation that awaits a write has constructed the instance
        unfold Host.awaited
        cases hpc : w.sys.host.activating with
        | none => rfl
        | some pc =>
          cases ha : pc.awaits with
          | none => exact ha
          | some k =>
            have hp : w.sys.flow.phase = .opening := by
              rw [Sys.flow_phase hpc]
              cases pc <;> simp_all [ActPc.awaits, ActPc.phase]
            exact absurd (hi.symm.trans (hl.constructed hp)) (by simp)
    · unfold Host.loading at hload
      unfold Host.awaited
      cases hpc : w.sys.host.activating with
      | none => rw [hpc] at hload; exact absurd hload (by simp)
      | some pc =>
        have hp : w.sys.flow.phase = .loading := by
          rw [Sys.flow_phase hpc]
          rw [hpc] at hload
          cases pc <;> simp_all [ActPc.phase]
        refine ⟨.inl (hl.early (.inl hp)).1, ?_⟩
        rw [hpc] at hload
        cases pc <;> simp_all [ActPc.awaits]
  rcases h.quiet hunused.1 k sv hk with he | he
  · exact he
  · rw [hunused.2] at he
    exact absurd he (by simp)

/-- The driver moves on with a write: the host is in use. -/
theorem driven {k : ℕ} {ok : Bool} {sv sv' : Save S} (h : Carrying w)
    (hl : Lifecycle w.sys.flow.toLife) (hk : w.sys.host.saves[k]? = some sv)
    (hsv : sv.pc.isEnded = false)
    (hhost : s'.host = { w.sys.host with saves := w.sys.host.saves.set k sv' })
    (hseq : sv'.seq = sv.seq)
    (hfail : sv'.pc = .ended false → w.sys.host.snapshotDirty = false → 0 ≤ sv.seq →
      w.sys.host.flushedAfter k = true)
    (hvalue : w.sys.host.snapshotDirty = false → w.sys.Saved → s'.Saved) :
    Carrying (w.next (.save k ok) s') := by
  have hused : ¬(w.sys.host.inst = none ∨ ∃ snap, w.sys.host.loading = some snap) := by
    intro hu
    exact absurd (h.ended_of_unused hl hu hk) (by rw [hsv]; simp)
  obtain ⟨hi, hload⟩ := not_or.mp hused
  have hlast : ∀ (j : ℕ) (sv : Save S), s'.host.saves[j]? = some sv →
      j = k ∧ sv = sv' ∨ w.sys.host.saves[j]? = some sv := by
    intro j sv hj
    rw [hhost] at hj
    have hj : (w.sys.host.saves.set k sv')[j]? = some sv := hj
    rw [List.getElem?_set] at hj
    split at hj
    · next hkj =>
      split at hj
      · exact .inl ⟨hkj.symm, (Option.some.inj hj).symm⟩
      · exact absurd hj (by simp)
    · exact .inr hj
  -- every write keeps its seq
  have hseqs : ∀ (j : ℕ) (sv : Save S), w.sys.host.saves[j]? = some sv →
      ∃ sv', s'.host.saves[j]? = some sv' ∧ sv'.seq = sv.seq := by
    intro j sv₁ hj
    rw [hhost]
    show ∃ sv'', (w.sys.host.saves.set k sv')[j]? = some sv'' ∧ _
    rw [List.getElem?_set]
    by_cases hkj : k = j
    · obtain rfl := hkj
      obtain rfl := Option.some.inj (hk.symm.trans hj)
      rw [if_pos rfl, if_pos (List.getElem?_eq_some_iff.mp hk).1]
      exact ⟨sv', rfl, hseq⟩
    · rw [if_neg hkj]
      exact ⟨sv₁, hj, rfl⟩
  have hafter : ∀ j, w.sys.host.flushedAfter j = true → s'.host.flushedAfter j = true := by
    intro j hj
    obtain ⟨i, sv₁, hlt, hi, h0⟩ := Host.flushedAfter_iff.mp hj
    obtain ⟨sv₂, hi', he⟩ := hseqs i sv₁ hi
    exact Host.flushedAfter_iff.mpr ⟨i, sv₂, hlt, hi', he ▸ h0⟩
  exact
    { loaded := fun snap hsnap => by
        have hsnap : s'.host.loading = some snap := hsnap
        rw [hhost] at hsnap
        exact absurd ⟨snap, hsnap⟩ hload
      quiet := fun hrest j sv₁ hj => by
        have hrest : s'.host.resting := hrest
        show sv₁.pc.isEnded = true ∨ s'.host.awaited = some j
        rw [hhost] at hrest ⊢
        rcases hlast j sv₁ hj with ⟨rfl, -⟩ | hj
        · rcases h.quiet hrest j sv hk with he | he
          · exact absurd he (by rw [hsv]; simp)
          · exact .inr he
        · exact h.quiet hrest j sv₁ hj
      value := fun hd hu => by
        have hd : s'.host.snapshotDirty = false := hd
        have hu : w.unsavedAfter (.save k ok) s' = false := hu
        unfold Watched.unsavedAfter at hu
        rw [if_neg (by rw [hd]; simp), hhost] at hu
        dsimp only at hu
        rw [List.length_set, if_neg (lt_irrefl _)] at hu
        rw [hhost] at hd
        exact hvalue hd (h.value hd (Bool.or_eq_false_iff.mp hu).1)
      followed := fun hd j sv₁ hj h0 hpc => by
        have hd : s'.host.snapshotDirty = false := hd
        rw [hhost] at hd
        refine hafter j ?_
        rcases hlast j sv₁ hj with ⟨rfl, rfl⟩ | hj
        · exact hfail hpc hd (hseq ▸ h0)
        · exact h.followed hd j sv₁ hj h0 hpc
      final := fun j idle hd => by
        have hd : s'.host.deactivating = _ := hd
        rw [hhost] at hd
        obtain ⟨hlen, sv₁, hj, h0⟩ := h.final j idle hd
        obtain ⟨sv₂, hj', he⟩ := hseqs j sv₁ hj
        refine ⟨?_, sv₂, hj', he ▸ h0⟩
        show j + 1 = s'.host.saves.length
        rw [hhost]
        exact hlen.trans List.length_set.symm
      flushed := fun e idle => by
        show s'.host.deactivating ≠ _
        rw [hhost]
        exact h.flushed e idle }

omit [DecidableEq S] in
/-- A write that fails carries the value no further; while the host is not dirty, a
later flush does. -/
theorem saved_of_failed {k : ℕ} {seq : ℤ} {version : Version} {pc : SavePc S}
    (hsaved : w.sys.Saved) (hk : w.sys.host.saves[k]? = some ⟨seq, version, pc⟩)
    (hpc : pc.isEnded = false)
    (hafter : seq < 0 ∨ w.sys.host.flushedAfter k = true) :
    (w.sys.setSave k ⟨seq, version, .ended false⟩).Saved := by
  have hlt := (List.getElem?_eq_some_iff.mp hk).1
  unfold Sys.Saved at hsaved ⊢
  show Sys.Carries _ (w.sys.host.saves.set k _).getLast?
  rw [getLast?_set hlt]
  split
  · next hlast =>
    -- the last write is not one that a flush has issued
    have hneg : seq < 0 := hafter.resolve_right (fun hj => by
      obtain ⟨j, sv, hkj, hj, -⟩ := Host.flushedAfter_iff.mp hj
      have := (List.getElem?_eq_some_iff.mp hj).1
      omega)
    rw [List.getLast?_eq_getElem?, ← hlast, Nat.add_sub_cancel, hk] at hsaved
    obtain obj | x | ok := pc
    · exact absurd hsaved.1 (not_le.mpr hneg)
    · exact absurd hsaved.1 (not_le.mpr hneg)
    · exact absurd hpc (by simp [SavePc.isEnded])
  · exact hsaved.other (Sys.settled_eq_false hk hpc) rfl rfl (fun _ hsnap _ => hsnap)

/-- The driver moves on with a snapshot write. -/
theorem of_saveStep {k : ℕ} {ok : Bool} (h : Carrying w)
    (hl : Lifecycle w.sys.flow.toLife) (hf : Flushable w.sys)
    (hg : w.Retries (.save k ok)) (hs : w.sys.saveStep k ok = some s') :
    Carrying (w.next (.save k ok) s') := by
  have hafter : ∀ seq version pc, w.sys.host.saves[k]? = some ⟨seq, version, pc⟩ →
      ok = false → w.sys.host.snapshotDirty = false →
      seq < 0 ∨ w.sys.host.flushedAfter k = true := by
    rintro seq version pc hk rfl hd
    have hg := hg.resolve_left (by rw [hd]; simp)
    rw [hk] at hg
    cases pc <;> exact hg
  unfold Sys.saveStep at hs
  split at hs
  · next seq version obj hk =>
    cases ok with
    | true =>
      rw [if_pos rfl] at hs
      obtain rfl := Option.some.inj hs
      exact h.driven hl hk rfl rfl rfl (fun hpc => absurd hpc (by simp))
        (fun _ hsaved => hsaved.encode hk)
    | false =>
      rw [if_neg (by simp)] at hs
      obtain rfl := Option.some.inj hs
      have hafter := hafter _ _ _ hk rfl
      exact h.driven hl hk rfl rfl rfl
        (fun _ hd h0 => (hafter hd).resolve_left (not_lt.mpr h0))
        (fun hd hsaved => saved_of_failed hsaved hk rfl (hafter hd))
  · next seq version x hk =>
    have hrow : w.sys.store.row ≠ none := by
      refine hf.row (.inr (.inr (.inl (fun he => ?_))))
      rw [he] at hk
      exact absurd hk (by simp)
    cases ok with
    | true =>
      rw [if_pos rfl] at hs
      obtain rfl := Option.some.inj hs
      refine h.driven hl hk rfl rfl rfl (fun hpc => absurd hpc (by simp))
        (fun hd hsaved => hsaved.land hrow hk ?_)
      have hg := hg.resolve_left (by rw [hd]; simp)
      rw [hk] at hg
      exact hg
    | false =>
      rw [if_neg (by simp)] at hs
      obtain rfl := Option.some.inj hs
      have hafter := hafter _ _ _ hk rfl
      exact h.driven hl hk rfl rfl rfl
        (fun _ hd h0 => (hafter hd).resolve_left (not_lt.mpr h0))
        (fun hd hsaved => saved_of_failed hsaved hk rfl (hafter hd))
  · exact absurd hs (by simp)

/-- **Every step of a host whose flushes are retried keeps the invariant.** -/
theorem step {w' : Watched S Env Op} (h : Carrying w)
    (hl : Lifecycle w.sys.flow.toLife) (hf : Flushable w.sys) (hg : w.Retries a)
    (hw : w.step cfg a = some w') : Carrying w' := by
  obtain ⟨s', hs, rfl⟩ := Option.map_eq_some_iff.mp hw
  have h0 := (hf.step hl hs).seq
  by_cases hb : a.beside = true
  · have hside : Aside w a := fun env snap r he => by
      subst he
      exact absurd hb (by simp [Act.beside])
    have hbs := Sys.beside_step hl hb hs
    refine h.frame hside (Sys.writes_step (fun k ok he => ?_) hs) h0 (.beside hbs)
      hbs.activated hbs.awaited_eq.1 hbs.awaited_eq.2 (fun d hd => hbs.deactivating_cases hd)
    subst he
    exact absurd hb (by simp [Act.beside])
  have hframe : Writes w.sys.store s'.store → Ran w.sys s' →
      (∀ env ok, a ≠ .activation env ok) →
      s'.host.activated = w.sys.host.activated →
      s'.host.activating = w.sys.host.activating →
      s'.host.deactivating = w.sys.host.deactivating → Carrying (w.next a s') := by
    intro hw hr ha hact hactivating hdeact
    refine h.frame (fun env snap r he => absurd he (ha _ _)) hw h0 hr hact ?_ ?_
      (fun d hd => .inl (hdeact ▸ hd))
    · unfold Host.awaited
      rw [hactivating]
    · unfold Host.loading
      rw [hactivating]
  cases a with
  | activation env ok => exact h.of_actStep hl h0 hs
  | worker g env ok => exact h.of_workerStep hl h0 hs
  | deactivation env => exact h.of_deactStep hl hf hg hs
  | snapshotFire => exact h.of_snapshotFire hf h0 hs
  | save k ok => exact h.of_saveStep hl hf hg hs
  | subscribe l =>
    rw [Sys.step, Sys.subscribe] at hs
    split at hs
    · exact absurd hs (by simp)
    · obtain rfl := Option.some.inj hs
      exact hframe .nothing (.aside rfl rfl rfl rfl rfl rfl) (by simp) rfl rfl rfl
  | unsubscribe l =>
    obtain rfl := Option.some.inj hs
    exact hframe .nothing (.aside rfl rfl rfl rfl rfl rfl) (by simp) rfl rfl rfl
  | notifyTombstone =>
    obtain rfl := Option.some.inj hs
    exact hframe .nothing (.aside rfl rfl rfl rfl rfl rfl) (by simp) rfl rfl rfl
  | _ => exact absurd rfl hb

end Carrying
