import Actjs.Carrying

/-!
# The final flush

A host that is deactivated flushes before it drops the instance, so that the
live snapshot is what `snapshot()` returned last. The flush does something
only if the host is marked dirty, and the mark is cleared when a write is
handed to the driver, not when it has landed. `Carried` follows the value
through that: while the host is not dirty, and nothing has changed the state
behind the mark, the value is in the object the last write refers to, then in
what that write has encoded, then live. What spoils it is a write that is
still in flight when the instance is dropped, a write that lands over a later
one, and code that changes the state without marking the host – a hook, or a
turn that fails.
-/

variable {S Env Op : Type}

/-! ## When the flush is not enough -/

/-- **What the final flush relies on.** No snapshot write fails, each lands
in order, and the instance is dropped only when none is in flight and, if a
turn has ever changed the state, nothing has done so behind the mark. -/
def Watched.KeepsFlush (w : Watched S Env Op) : Act Env → Prop
  | .save k ok =>
    ok = true ∧
      match w.sys.host.saves[k]? with
      | some ⟨seq, _, .toLand _⟩ => w.sys.LandsInOrder k seq
      | _ => True
  | .deactivation _ =>
    w.sys.drops = true →
      w.sys.host.settled = true ∧ (w.turned = true → w.unsaved = false)
  | _ => True

instance (w : Watched S Env Op) : (a : Act Env) → Decidable (w.KeepsFlush a) :=
  Act.decidesFlushes
    (fun k ok => by
      unfold Watched.KeepsFlush
      dsimp only
      rcases w.sys.host.saves[k]? with _ | ⟨q, v, _ | _ | _⟩ <;> infer_instance)
    (fun env => by
      unfold Watched.KeepsFlush
      infer_instance)
    (fun a hsave hdeact => by
      cases a with
      | save k ok => exact absurd rfl (hsave k ok)
      | deactivation env => exact absurd rfl (hdeact env)
      | _ => trivial)

/-- None of its writes is to be retried. -/
theorem Watched.KeepsFlush.retries {w : Watched S Env Op} {a : Act Env}
    (h : w.KeepsFlush a) : w.Retries a := by
  cases a with
  | save k ok =>
    obtain ⟨rfl, h⟩ := h
    refine .inr ?_
    revert h
    rcases w.sys.host.saves[k]? with _ | ⟨seq, version, obj | x | ok⟩
    · exact fun _ => trivial
    · exact fun _ => trivial
    · exact id
    · exact fun _ => trivial
  | deactivation env => exact fun hd => (h hd).1
  | _ => trivial

/-! ## What becomes of the instance that is dropped

While an instance is in use its value is on the way to storage; once it is
dropped, the value it had last is live. -/

/-- **The invariant**: the value is carried to storage, and once the instance
is dropped it is live.

It has what `Carrying` has of a host in use, for writes that all land, and two
fields beyond: what was dropped is live, and a deactivation that ends has
dropped something. -/
structure Carried (w : Watched S Env Op) : Prop where
  /-- What an activation has loaded is still live. -/
  loaded : ∀ snap, w.sys.host.loading = some snap →
    ∃ snap', w.sys.store.loadSnapshot = some snap' ∧ snap'.seq = snap.seq
      ∧ snap'.state = snap.state
  /-- While nobody uses the host, the only write in flight is the one that its
  activation awaits. -/
  quiet : w.sys.host.resting → ∀ k sv, w.sys.host.saves[k]? = some sv →
    sv.pc.isEnded = true ∨ w.sys.host.awaited = some k
  /-- No snapshot write has failed. -/
  landed : ∀ (k : ℕ) (sv : Save S), w.sys.host.saves[k]? = some sv →
    sv.pc ≠ .ended false
  flushed : ∀ e idle,
    w.sys.host.deactivating ≠ some ⟨.finishing (.error e), idle⟩
  value : w.sys.host.snapshotDirty = false → w.unsaved = false → w.sys.Saved
  /-- What the instance was dropped with is live, if a turn has ever changed
  the state. -/
  dropped : ∀ x, w.dropped = some x → w.sys.host.inst = none
    ∧ (w.turned = true → w.sys.store.loadSnapshot.map SnapshotRead.state = some x)
  /-- A deactivation that ends well has dropped the instance. -/
  ending : ∀ idle, w.sys.host.deactivating = some ⟨.finishing (.ok ()), idle⟩ →
    w.sys.host.inst = none ∧ w.dropped ≠ none

namespace Carried

variable [DecidableEq S] {cfg : HostConfig S Env Op} {w : Watched S Env Op}
  {s' : Sys S Env Op} {a : Act Env}

omit [DecidableEq S] in
/-- A new host. -/
theorem init (cfg : HostConfig S Env Op) (store : ActorStore S) :
    Carried (Watched.init cfg store) where
  loaded snap h := absurd h (by simp [Host.loading, Watched.init, Sys.init, Host.init])
  quiet _ k sv h := absurd h (by simp [Watched.init, Sys.init, Host.init])
  landed k sv h := absurd h (by simp [Watched.init, Sys.init, Host.init])
  flushed e idle h := absurd h (by simp [Watched.init, Sys.init, Host.init])
  value _ h := absurd h (by simp [Watched.init])
  dropped x h := absurd h (by simp [Watched.init])
  ending idle h := absurd h (by simp [Watched.init, Sys.init, Host.init])

omit [DecidableEq S] in
/-- With the value carried, three things are left to see. -/
theorem of_carrying (hc : Carrying w)
    (landed : ∀ (k : ℕ) (sv : Save S), w.sys.host.saves[k]? = some sv →
      sv.pc ≠ .ended false)
    (dropped : ∀ x, w.dropped = some x → w.sys.host.inst = none
      ∧ (w.turned = true → w.sys.store.loadSnapshot.map SnapshotRead.state = some x))
    (ending : ∀ idle, w.sys.host.deactivating = some ⟨.finishing (.ok ()), idle⟩ →
      w.sys.host.inst = none ∧ w.dropped ≠ none) : Carried w :=
  { loaded := hc.loaded, quiet := hc.quiet, landed, flushed := hc.flushed,
    value := hc.value, dropped, ending }

omit [DecidableEq S] in
/-- A write that has just been issued has not failed. -/
theorem landed_hands (h : Carried w) (hh : Hands w.sys s') (k : ℕ) (sv : Save S)
    (hk : s'.host.saves[k]? = some sv) : sv.pc ≠ .ended false := by
  rcases hh.saves hk with hk | hk
  · exact h.landed k sv hk
  · intro he
    rw [he] at hk
    exact absurd hk (by simp [SavePc.isEnded])

/-- What was dropped stays so while there is no instance. -/
theorem dropped_next (h : Carried w) (hw : Writes w.sys.store s'.store)
    (ha : ∀ g env ok, a ≠ .worker g env ok)
    (hi : s'.host.inst = none → w.sys.host.inst = none) :
    ∀ x, (w.next a s').dropped = some x → s'.host.inst = none
      ∧ ((w.next a s').turned = true →
        s'.store.loadSnapshot.map SnapshotRead.state = some x) := by
  intro x hx
  have hx : w.droppedAfter s' = some x := hx
  have hturned : w.turnedAfter a s' = w.turned := by
    unfold Watched.turnedAfter
    cases a with
    | worker g env ok => exact absurd rfl (ha g env ok)
    | _ => exact Bool.or_false _
  cases hi' : s'.host.inst with
  | some g =>
    rw [Watched.droppedAfter, hi'] at hx
    exact absurd hx (by simp)
  | none =>
    rw [Watched.droppedAfter, hi', hi hi'] at hx
    obtain ⟨-, hlive⟩ := h.dropped x (by simpa using hx)
    refine ⟨rfl, fun ht => ?_⟩
    obtain ⟨snap, hsnap, hstate⟩ :=
      Option.map_eq_some_iff.mp (hlive (hturned ▸ ht))
    obtain ⟨snap', hsnap', -, hstate'⟩ := hw.live hsnap
    rw [hsnap', ← hstate, ← hstate']
    rfl

/-- A step that concerns neither the state nor the writes. -/
theorem frame (h : Carried w) (hc : Carrying (w.next a s'))
    (ha' : ∀ g env ok, a ≠ .worker g env ok) (hw : Writes w.sys.store s'.store)
    (hr : Ran w.sys s') (inst : s'.host.inst = w.sys.host.inst)
    (deactivating : ∀ d, s'.host.deactivating = some d →
      w.sys.host.deactivating = some d ∨ ∃ g, d.pc = .awaitWorker g) :
    Carried (w.next a s') := by
  refine of_carrying hc (h.landed_hands hr.hands)
    (h.dropped_next hw ha' (fun hi => inst ▸ hi)) (fun idle hd => ?_)
  obtain ⟨hi, hne⟩ := h.ending idle ((deactivating _ hd).resolve_right (by simp))
  refine ⟨inst.trans hi, ?_⟩
  show w.droppedAfter s' ≠ none
  rw [Watched.droppedAfter, inst, hi]
  exact hne

/-- A step on a host in use, whose deactivation, if any, awaits the worker. -/
theorem inUse (h : Carried w) (hc : Carrying (w.next a s')) (hh : Hands w.sys s')
    (hact : w.sys.host.activated = true)
    (hd : ∀ d, w.sys.host.deactivating = some d → ∃ g, d.pc = .awaitWorker g)
    (hl : Lifecycle w.sys.flow.toLife)
    (inst : s'.host.inst = w.sys.host.inst)
    (deactivating : s'.host.deactivating = w.sys.host.deactivating) :
    Carried (w.next a s') := by
  have hfin : ∀ o idle, s'.host.deactivating ≠ some ⟨.finishing o, idle⟩ := by
    intro o idle he
    obtain ⟨g, hg⟩ := hd _ (deactivating ▸ he)
    exact absurd hg (by simp)
  have hi : s'.host.inst ≠ none := by
    rw [inst]
    refine hl.inst_ne_none hact (fun idle he => hfin _ idle (deactivating.trans he))
  refine of_carrying hc (h.landed_hands hh) (fun x hx => ?_)
    (fun idle he => absurd he (hfin _ idle))
  have hx : w.droppedAfter s' = some x := hx
  rw [Watched.droppedAfter, if_pos (Option.isSome_iff_ne_none.mpr hi)] at hx
  exact absurd hx (by simp)

/-- A segment of an activation. -/
theorem of_actStep {env : Env} {ok : Bool} (h : Carried w)
    (hc : Carrying (w.next (.activation env ok) s')) (hl : Lifecycle w.sys.flow.toLife)
    (hs : w.sys.actStep cfg env ok = some s') :
    Carried (w.next (.activation env ok) s') := by
  have hw := Sys.writes_actStep hs
  rcases Sys.beside_or_opens hl hs with hb | ⟨hact, -⟩
  · -- an activated host only reads its inbox
    exact h.frame hc (by simp) hw (.beside hb) hb.inst
      (fun d hd => hb.deactivating_cases hd)
  have hp := Sys.proceeds_actStep hl hs
  have ho := Sys.opens_actStep hs
  refine of_carrying hc (fun k sv hk => ?_)
    (h.dropped_next hw (by simp) (Sys.inst_actStep hs)) (fun idle hd => ?_)
  · have hk : s'.host.saves[k]? = some sv := hk
    rcases hp.awaits with ⟨hsv, -⟩ | ⟨sv', hpc', hsv, -⟩
    · exact h.landed k sv (hsv ▸ hk)
    · rw [hsv, List.getElem?_append] at hk
      split at hk
      · exact h.landed k sv hk
      · obtain rfl := List.mem_singleton.mp (List.mem_of_getElem? hk)
        intro he
        rw [he] at hpc'
        exact absurd hpc' (by simp [SavePc.isEnded])
  · have hd : s'.host.deactivating = _ := hd
    rw [ho.deactivating] at hd
    exact absurd (hl.activated_of_deact hd) (by rw [hact]; simp)

/-- A segment of a turn: the worker is alive on a host in use. -/
theorem of_workerStep {g : ℕ} {env : Env} {ok : Bool} (h : Carried w)
    (hc : Carrying (w.next (.worker g env ok) s')) (hl : Lifecycle w.sys.flow.toLife)
    (hs : w.sys.workerStep cfg g env ok = some s') :
    Carried (w.next (.worker g env ok) s') := by
  have ht := Sys.turnPart_workerStep hs
  have hg := Sys.alive_of_workerStep hs
  exact h.inUse hc ht.hands (hl.alive g hg).1 (fun d hd => hl.awaits hg hd) hl ht.inst
    ht.deactivating

/-- The debounce timer fires on a host in use. -/
theorem of_snapshotFire (h : Carried w) (hc : Carrying (w.next .snapshotFire s'))
    (hf : Flushable w.sys) (hl : Lifecycle w.sys.flow.toLife)
    (hs : w.sys.snapshotFire = some s') : Carried (w.next .snapshotFire s') := by
  unfold Sys.snapshotFire at hs
  split at hs
  · next ht =>
    obtain ⟨hact, hd⟩ := hf.timer ht
    dsimp only at hs
    split at hs <;> obtain rfl := Option.some.inj hs
    · exact h.inUse hc
        (.flush { w.sys.host with snapshotTimer := false } rfl rfl rfl rfl) hact hd hl
        rfl rfl
    · exact h.inUse hc (.still rfl rfl (.apply _ .keep) rfl) hact hd hl rfl rfl
  · exact absurd hs (by simp)

omit [DecidableEq S] in
/-- The instance is dropped: no write is in flight, so the value that was
carried is live. -/
theorem live_of_drops {env : Env} (h : Carried w)
    (hg : w.KeepsFlush (.deactivation env)) (hdrop : w.sys.drops = true)
    (hd : w.sys.host.snapshotDirty = false)
    (ht : w.turned = true) :
    w.sys.store.loadSnapshot.map SnapshotRead.state
      = some w.sys.host.snapshotValue := by
  obtain ⟨hset, hu⟩ := hg hdrop
  refine (h.value hd (hu ht)).live (fun sv hsv => ?_)
  exact List.all_eq_true.mp hset sv (List.mem_of_getLast? hsv)

/-- A segment of a deactivation. -/
theorem of_deactStep {env : Env} (h : Carried w)
    (hc : Carrying (w.next (.deactivation env) s')) (hl : Lifecycle w.sys.flow.toLife)
    (hf : Flushable w.sys) (hg : w.KeepsFlush (.deactivation env))
    (hs : w.sys.deactStep env = some s') :
    Carried (w.next (.deactivation env) s') := by
  have he := Sys.ends_deactStep hs
  have hst := Sys.store_deactStep hs
  have hw : Writes w.sys.store s'.store := hst ▸ .nothing
  by_cases hfin : ∃ o idle, w.sys.host.deactivating = some ⟨.finishing o, idle⟩
  · -- nothing has changed since the instance was dropped
    obtain ⟨o, idle, hd⟩ := hfin
    simp only [Sys.deactStep, hd] at hs
    obtain rfl := Option.some.inj hs
    exact of_carrying hc h.landed
      (h.dropped_next .nothing (by simp) (fun hi => hi))
      (fun idle' he => absurd he (by simp [Watched.next]))
  obtain ⟨pc, idle, hd, -⟩ := Sys.deactSegment hs
  have hi : w.sys.host.inst ≠ none := by
    refine hl.inst_ne_none (hl.activated_of_deact hd) (fun idle he => hfin ?_)
    exact ⟨_, idle, he⟩
  have hsome : w.sys.host.inst.isSome = true := Option.isSome_iff_ne_none.mpr hi
  rcases he.inst with ⟨hinst, hnot⟩ | ⟨hinst, hsaves, hdirty, hdrop⟩
  · -- the instance is kept
    refine of_carrying hc (h.landed_hands he.hands) (fun x hx => ?_)
      (fun idle hd' => absurd hd' (hnot idle))
    have hx : w.droppedAfter s' = some x := hx
    rw [Watched.droppedAfter, hinst, if_pos hsome] at hx
    exact absurd hx (by simp)
  · -- the instance is dropped
    have hdrop := hdrop hi
    have hafter : w.droppedAfter s' = some w.sys.host.snapshotValue := by
      rw [Watched.droppedAfter, hinst, if_neg (by simp), if_pos hsome]
    have hclean : w.sys.host.snapshotDirty = false := by
      rcases he.clean hi with hc | ⟨-, hne⟩
      · exact hdirty ▸ hc
      · exact hf.clean _ hd (fun g hg => hne g idle (hd.trans (by rw [← hg])))
    refine of_carrying hc (h.landed_hands he.hands) (fun x hx => ?_)
      (fun idle _ => ⟨hinst, ?_⟩)
    · obtain rfl := Option.some.inj (hafter.symm.trans hx)
      refine ⟨hinst, fun ht => ?_⟩
      show s'.store.loadSnapshot.map SnapshotRead.state = _
      rw [hst]
      refine h.live_of_drops hg hdrop hclean ?_
      simpa [Watched.next, Watched.turnedAfter] using ht
    · show w.droppedAfter s' ≠ none
      rw [hafter]
      simp

/-- The driver moves on with a snapshot write, which does not fail: the host is in
use. -/
theorem of_saveStep {k : ℕ} {ok : Bool} (h : Carried w) (hw : Carrying w)
    (hc : Carrying (w.next (.save k ok) s')) (hl : Lifecycle w.sys.flow.toLife)
    (hg : w.KeepsFlush (.save k ok)) (hs : w.sys.saveStep k ok = some s') :
    Carried (w.next (.save k ok) s') := by
  obtain ⟨rfl, -⟩ := hg
  obtain ⟨sv, sv', hk, hsv, hsv', hhost⟩ : ∃ sv sv' : Save S,
      w.sys.host.saves[k]? = some sv ∧ sv.pc.isEnded = false ∧ sv'.pc ≠ .ended false
        ∧ s'.host = { w.sys.host with saves := w.sys.host.saves.set k sv' } := by
    unfold Sys.saveStep at hs
    split at hs
    · next seq version obj hk =>
      rw [if_pos rfl] at hs
      obtain rfl := Option.some.inj hs
      exact ⟨_, _, hk, rfl, by simp, rfl⟩
    · next seq version x hk =>
      rw [if_pos rfl] at hs
      obtain rfl := Option.some.inj hs
      exact ⟨_, _, hk, rfl, by simp, rfl⟩
    · exact absurd hs (by simp)
  have hi : w.sys.host.inst ≠ none := fun hi =>
    absurd (hw.ended_of_unused hl (.inl hi) hk) (by rw [hsv]; simp)
  refine of_carrying hc (fun j sv₁ hj => ?_) (fun x hx => ?_) (fun idle hd => ?_)
  · have hj : s'.host.saves[j]? = some sv₁ := hj
    rw [hhost] at hj
    obtain hj | rfl := List.mem_or_eq_of_mem_set (List.mem_of_getElem? hj)
    · obtain ⟨i, hi⟩ := List.mem_iff_getElem?.mp hj
      exact h.landed i sv₁ hi
    · exact hsv'
  · have hx : w.droppedAfter s' = some x := hx
    rw [Watched.droppedAfter, hhost] at hx
    dsimp only at hx
    rw [if_pos (Option.isSome_iff_ne_none.mpr hi)] at hx
    exact absurd hx (by simp)
  · have hd : s'.host.deactivating = _ := hd
    rw [hhost] at hd
    exact absurd (h.ending idle hd).1 hi

/-- **Every step of a host whose flushes are kept keeps the invariant.** -/
theorem step {w' : Watched S Env Op} (h : Carried w) (hc : Carrying w)
    (hl : Lifecycle w.sys.flow.toLife) (hf : Flushable w.sys) (hg : w.KeepsFlush a)
    (hw : w.step cfg a = some w') : Carried w' := by
  have hc' := hc.step hl hf hg.retries hw
  obtain ⟨s', hs, rfl⟩ := Option.map_eq_some_iff.mp hw
  by_cases hb : a.beside = true
  · have hbs := Sys.beside_step hl hb hs
    refine h.frame hc' (fun g env ok he => ?_) (Sys.writes_step (fun k ok he => ?_) hs)
      (.beside hbs) hbs.inst (fun d hd => hbs.deactivating_cases hd)
    · subst he
      exact absurd hb (by simp [Act.beside])
    · subst he
      exact absurd hb (by simp [Act.beside])
  cases a with
  | activation env ok => exact h.of_actStep hc' hl hs
  | worker g env ok => exact h.of_workerStep hc' hl hs
  | deactivation env => exact h.of_deactStep hc' hl hf hg hs
  | snapshotFire => exact h.of_snapshotFire hc' hf hl hs
  | save k ok => exact h.of_saveStep hc hc' hl hg hs
  | subscribe l =>
    rw [Sys.step, Sys.subscribe] at hs
    split at hs
    · exact absurd hs (by simp)
    · obtain rfl := Option.some.inj hs
      exact h.frame hc' (by simp) .nothing (.aside rfl rfl rfl rfl rfl rfl) rfl
        (fun _ hd => .inl hd)
  | unsubscribe l =>
    obtain rfl := Option.some.inj hs
    exact h.frame hc' (by simp) .nothing (.aside rfl rfl rfl rfl rfl rfl) rfl
      (fun _ hd => .inl hd)
  | notifyTombstone =>
    obtain rfl := Option.some.inj hs
    exact h.frame hc' (by simp) .nothing (.aside rfl rfl rfl rfl rfl rfl) rfl
      (fun _ hd => .inl hd)
  | _ => exact absurd rfl hb

end Carried

/-! ## What is live when the instance is gone -/

/-- **What was dropped is live**, once a turn has changed the state, and a
deactivation that resolves has dropped the instance. -/
def Watched.Flushed (w : Watched S Env Op) : Prop :=
  (∀ idle, w.sys.host.deactivating = some ⟨.finishing (.ok ()), idle⟩ →
      w.dropped ≠ none)
    ∧ (w.turned = true → ∀ x, w.dropped = some x →
      w.sys.store.loadSnapshot.map SnapshotRead.state = some x)

/-- **The final flush.** In every run of a host in which every snapshot write
lands, in order, and the instance is dropped with no write in flight and
nothing changed behind the mark, the live snapshot is what `snapshot()`
returned when the instance was dropped. -/
theorem final_flush [DecidableEq S] (cfg : HostConfig S Env Op)
    {store : ActorStore S} {w : Watched S Env Op} {as : List (Act Env)}
    (hG : TransitionSystem.Along (Watched.step cfg) Watched.KeepsFlush
      (Watched.init cfg store) as)
    (hrun : TransitionSystem.run (Watched.step cfg) (Watched.init cfg store) as
      = some w) : w.Flushed := by
  have h := TransitionSystem.run_invariant
    (P := fun w : Watched S Env Op => Lifecycle w.sys.flow.toLife
      ∧ Flushable w.sys ∧ Carrying w ∧ Carried w) _
    (fun w a w' h hg hw => by
      obtain ⟨hl, hf, hc, hcar⟩ := h
      have hc' := hc.step hl hf hg.retries hw
      have hcar' := hcar.step hc hl hf hg hw
      obtain ⟨s', hs, rfl⟩ := Option.map_eq_some_iff.mp hw
      exact ⟨hl.of_moves (Sys.flow_step hs), hf.step hl hs, hc', hcar'⟩)
    ⟨.init cfg store, .init cfg store, .init cfg store, .init cfg store⟩ hG hrun
  exact ⟨fun idle hd => (h.2.2.2.ending idle hd).2,
    fun ht x hx => (h.2.2.2.dropped x hx).2 ht⟩

namespace Counter

/-- A call of `inc` that commits, on a new host. -/
def incremented : List (Act Bool) :=
  .callStart 0 "inc" .null :: activating 8 ++ .callResume 0 :: working 1 4

/-- The deactivation of the host up to its final flush, or, if that has
nothing to do, up to its end. -/
def deactivating : List (Act Bool) :=
  .deactivate true :: working 1 1 ++ [.deactivation true]

end Counter

open Counter in
/-- The theorem applies to a host whose final flush writes the value. -/
theorem final_flush_incremented : ∃ w : Watched ℕ Bool ℕ,
    TransitionSystem.run (Watched.step cfg) (Watched.init cfg .empty)
        (incremented ++ deactivating
          ++ [.save 0 true, .save 0 true, .deactivation true]) = some w
      ∧ w.turned = true ∧ w.dropped = some 1 ∧ w.Flushed := by
  have hrun : (TransitionSystem.run (Watched.step cfg) (Watched.init cfg .empty)
      (incremented ++ deactivating
        ++ [.save 0 true, .save 0 true, .deactivation true])).any
      (fun w => w.turned && w.dropped == some 1) = true := by decide
  obtain ⟨w, hw, ht⟩ := (Option.any_eq_true _ _).mp hrun
  obtain ⟨ht, hd⟩ := Bool.and_eq_true_iff.mp ht
  exact ⟨w, hw, ht, by simpa using hd, final_flush cfg (by decide) hw⟩

open Counter in
/-- The debounced flush is in flight when the host is deactivated: the
deactivation finds the host not dirty, awaits no write, and resolves with
nothing stored. No storage operation has failed. -/
theorem not_final_flush : ∃ w : Watched ℕ Bool ℕ,
    TransitionSystem.run (Watched.step cfg) (Watched.init cfg .empty)
        (incremented ++ .snapshotFire :: deactivating) = some w
      ∧ w.turned = true
      ∧ w.sys.host.deactivating = some ⟨.finishing (.ok ()), false⟩
      ∧ w.dropped = some 1 ∧ w.sys.store.loadSnapshot = none := by
  refine ⟨_, rfl, ?_, rfl, ?_, rfl⟩
  · decide
  · decide
