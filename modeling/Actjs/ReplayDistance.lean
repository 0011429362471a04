import Actjs.Upgrades

/-!
# The replay distance

A cold start of an event-sourced actor replays what was logged after the live
snapshot. The host keeps that distance below `snapshotEveryNEvents`: a turn
and a replay add the events they fold to `eventsSinceSnapshot`, and flush if
there are enough of them. The counter is in memory, and what it counts is in
storage.

`Metered` says at each await how the two compare. Three moments need care:
between the append of a batch and its fold the log is ahead of the counter by
the batch; between the landing of a flush and its continuation the counter is
stale; and an activation that finds nothing to replay leaves the counter of
the one before, which is zero then.
-/

open Function (update)

variable {S Env Op : Type}

/-! ## The distance

From the seq of the live snapshot to the head of the log. -/

/-- The seq of the live snapshot among these, `0` if there is none. -/
def snapshotSeq (ps : List (ℤ × SnapshotRow S)) : ℤ :=
  ((bestSnapshot ps).map Prod.fst).getD 0

/-- The seq of the live snapshot, `0` if there is none. -/
def ActorStore.liveSeq (st : ActorStore S) : ℤ :=
  (st.loadSnapshot.map SnapshotRead.seq).getD 0

/-- **Bounded replay distance**, of one state: the head of the log is fewer than
`n` events after the live snapshot, and `eventsSinceSnapshot` says how many. -/
structure ReplayBounded (n : ℕ) (s : Sys S Env Op) : Prop where
  counted : (s.host.eventsSinceSnapshot : ℤ)
    = s.store.headEventSeq - s.store.liveSeq
  bounded : s.store.headEventSeq - s.store.liveSeq < n

section

variable {ps : List (ℤ × SnapshotRow S)} {n : ℤ}

theorem snapshotSeq_nonneg (ps : List (ℤ × SnapshotRow S)) : 0 ≤ snapshotSeq ps := by
  unfold snapshotSeq
  cases h : bestSnapshot ps with
  | none => exact le_rfl
  | some p => exact (bestSnapshot_mem h).2

/-- No snapshot is above the live one. -/
theorem le_snapshotSeq {q : ℤ × SnapshotRow S} (hq : q ∈ ps) : q.fst ≤ snapshotSeq ps := by
  unfold snapshotSeq
  cases h : bestSnapshot ps with
  | none => exact le_of_lt (bestSnapshot_none h q hq)
  | some p => exact bestSnapshot_le h q hq

theorem snapshotSeq_mem (ps : List (ℤ × SnapshotRow S)) :
    snapshotSeq ps = 0 ∨ ∃ q ∈ ps, q.fst = snapshotSeq ps := by
  unfold snapshotSeq
  cases h : bestSnapshot ps with
  | none => exact .inl rfl
  | some p => exact .inr ⟨p, (bestSnapshot_mem h).1, rfl⟩

/-- The seq of the live snapshot is the greatest that is not negative. -/
theorem snapshotSeq_eq (h0 : 0 ≤ n) (hle : ∀ q ∈ ps, q.fst ≤ n)
    (hmem : n = 0 ∨ ∃ q ∈ ps, q.fst = n) : snapshotSeq ps = n := by
  refine le_antisymm ?_ ?_
  · obtain h | ⟨q, hq, h⟩ := snapshotSeq_mem ps
    · exact h ▸ h0
    · exact h ▸ hle q hq
  · obtain rfl | ⟨q, hq, rfl⟩ := hmem
    · exact snapshotSeq_nonneg ps
    · exact le_snapshotSeq hq

/-- **A snapshot is saved**: it is the live one if it is not below it. -/
theorem snapshotSeq_saveSnapshot (st : ActorStore S) (seq : ℤ) (version : Version) (x : S) :
    snapshotSeq (st.saveSnapshot seq version x).snapshots
      = max (snapshotSeq st.snapshots) seq := by
  have hnonneg := snapshotSeq_nonneg st.snapshots
  refine snapshotSeq_eq (le_max_of_le_left hnonneg) (fun q hq => ?_) ?_
  · obtain hq | hq := List.mem_append.mp hq
    · exact le_max_of_le_left (le_snapshotSeq (List.mem_filter.mp hq).1)
    · rw [List.mem_singleton.mp hq]
      exact le_max_right _ _
  · by_cases hlt : snapshotSeq st.snapshots ≤ seq
    · exact .inr ⟨_, List.mem_append_right _ (List.mem_singleton.mpr rfl), by
        rw [max_eq_right hlt]⟩
    · rw [max_eq_left (le_of_not_ge hlt)]
      refine (snapshotSeq_mem st.snapshots).imp_right (fun ⟨q, hq, he⟩ => ⟨q, ?_, he⟩)
      refine List.mem_append_left _ (List.mem_filter.mpr ⟨hq, ?_⟩)
      rw [bne_iff_ne]
      omega

/-- What an activation loads is the live snapshot. -/
theorem ActorStore.liveSeq_eq {st : ActorStore S} (h : st.row = none → st.snapshots = []) :
    st.liveSeq = snapshotSeq st.snapshots := by
  unfold ActorStore.liveSeq ActorStore.loadSnapshot
  cases hr : st.row with
  | none =>
    rw [h hr]
    rfl
  | some r =>
    unfold snapshotSeq
    cases bestSnapshot st.snapshots with
    | none => rfl
    | some p => rfl

end

/-! ## What the counter is worth

In each situation a host can be in: how the counter, the seq of the last write
and the live snapshot compare. -/

namespace Sys

variable {s : Sys S Env Op}

/-- The seq of the live snapshot. -/
def live (s : Sys S Env Op) : ℤ := snapshotSeq s.store.snapshots

/-- The head of the log. -/
def head (s : Sys S Env Op) : ℤ := s.store.headEventSeq

/-- `eventsSinceSnapshot`. -/
def since (s : Sys S Env Op) : ℤ := s.host.eventsSinceSnapshot

/-- No write in flight will be the live snapshot. -/
def Overtaken (s : Sys S Env Op) : Prop :=
  ∀ (j : ℕ) (sv : Save S), s.host.saves[j]? = some sv → sv.pc.isEnded = false →
    sv.seq ≤ s.live

/-- The host is not counting: its counter is zero where a replay would not set
it. -/
def Idle (s : Sys S Env Op) : Prop := s.Overtaken ∧ (s.head = s.live → s.since = 0)

/-- The counter is the distance. -/
def Counted (s : Sys S Env Op) : Prop := s.Overtaken ∧ s.since = s.head - s.live

/-- **Between two turns**: the counter is the distance, and below the
threshold. -/
def Close (cfg : HostConfig S Env Op) (s : Sys S Env Op) : Prop :=
  s.Counted ∧ s.host.currentSeq = s.head
    ∧ s.since < cfg.registration.snapshotEveryNEvents

/-- **Write `k` is of the head of the log**, and awaited: once it has landed, the
counter is stale. -/
def Writing (s : Sys S Env Op) (k : ℕ) : Prop :=
  s.host.currentSeq = s.head
    ∧ (∀ (j : ℕ) (sv : Save S), s.host.saves[j]? = some sv → j ≠ k →
      sv.pc.isEnded = false → sv.seq ≤ s.live)
    ∧ ∃ sv : Save S, s.host.saves[k]? = some sv ∧ sv.seq = s.head
      ∧ (sv.pc.isEnded = false ∧ s.since = s.head - s.live
        ∨ sv.pc = .ended true ∧ s.live = s.head)

end Sys

/-- The counter at each await of `doActivate`. -/
def ActPc.Meters (cfg : HostConfig S Env Op) (s : Sys S Env Op) : ActPc S Env → Prop
  | resolveCtor snap => s.Idle ∧ (snap.map SnapshotRead.seq).getD 0 = s.live
  | loadFence snap r => s.Idle ∧ (snap.map SnapshotRead.seq).getD 0 = s.live
    ∧ r.ctor.isEs = true
  | register => s.Idle ∧ s.live = 0
  | replayFlush k => s.Writing k
  | onActivate _ => s.Close cfg
  | loadSnapshot => True
  | readInbox => True
  | replayInbox _ => True
  | finishing _ => True
  -- from here on the state is that of the live snapshot
  | _ => s.Idle ∧ s.host.currentSeq = s.live

/-- The counter at each await of a worker. -/
def WorkerPc.Meters (cfg : HostConfig S Env Op) (s : Sys S Env Op) : WorkerPc S → Prop
  | appending _ events writes => s.Close cfg ∧ writes.length = events.length
  | appended _ events seq => s.Overtaken ∧ seq = s.head
    ∧ s.since + events.length = s.head - s.live
  | acking _ _ .swm => False
  | acking _ _ (.es _) => s.Counted ∧ s.host.currentSeq = s.head
    ∧ s.host.snapshotDirty = true
  | flushing _ k => s.Writing k
  | _ => s.Close cfg

/-- The counter at each await of `doDeactivate`. -/
def DeactPc.Meters (cfg : HostConfig S Env Op) (s : Sys S Env Op) : DeactPc S → Prop
  | awaitWorker g => (s.host.workers g).stage.alive = false → s.Close cfg
  | flush k => s.Writing k
  | onDeactivate _ => s.Counted
  | finishing (.ok _) => s.Counted
  | finishing (.error _) => False

/-- What the counter relies on: the code is event-sourced, nothing is above the
head of the log, and no write has failed. -/
structure Gauged (s : Sys S Env Op) : Prop where
  es : s.host.cls.isEs = true
  timer : s.host.snapshotTimer = false
  timerFlushes : s.host.timerFlushes = []
  /-- No snapshot is ahead of the log. -/
  stored : ∀ p ∈ s.store.snapshots, p.fst ≤ s.head
  /-- Nor is one on its way. -/
  writes : ∀ sv ∈ s.host.saves, sv.seq ≤ s.head ∧ sv.pc ≠ .ended false
  unheard : s.store.row = none → s.store.snapshots = []

/-- **The counter is kept**, at every await of every suspended function: what
`eventsSinceSnapshot` is worth depends on where they are, and each program
counter says it for itself. -/
structure Metered (cfg : HostConfig S Env Op) (s : Sys S Env Op) : Prop where
  gauged : Gauged s
  resting : s.host.activated = false →
    (∀ pc, s.host.activating = some pc → pc.beside = true) → s.Idle
  opening : ∀ pc, s.host.activating = some pc → pc.Meters cfg s
  working : ∀ g, (s.host.workers g).stage.alive = true →
    (s.host.workers g).Meters cfg s
  ending : ∀ d, s.host.deactivating = some d → d.pc.Meters cfg s

/-! ## Steps that leave the distance alone

Whatever neither logs an event nor lands a snapshot, nor moves the counter,
keeps every comparison. -/

/-- **The driver gets on with a write**, and may land it. -/
theorem Sys.saveStep_true {s s' : Sys S Env Op} {k : ℕ} (h : s.saveStep k true = some s') :
    ∃ sv sv' : Save S, s.host.saves[k]? = some sv ∧ sv.pc.isEnded = false
      ∧ sv'.seq = sv.seq ∧ s'.host = { s.host with saves := s.host.saves.set k sv' }
      ∧ s'.store.events = s.store.events ∧ s'.store.row = s.store.row
      ∧ (∀ p ∈ s'.store.snapshots, p ∈ s.store.snapshots ∨ p.fst = sv.seq)
      ∧ (sv'.pc.isEnded = false ∧ s'.live = s.live
        ∨ sv'.pc = .ended true ∧ s'.live = max s.live sv.seq) := by
  unfold Sys.saveStep at h
  split at h
  · next seq version obj hk =>
    rw [if_pos rfl] at h
    obtain rfl := Option.some.inj h
    exact ⟨_, ⟨seq, version, .toLand (s.host.objs.val obj)⟩, hk, rfl, rfl, rfl, rfl, rfl,
      fun _ hp => .inl hp, .inl ⟨rfl, rfl⟩⟩
  · next seq version x hk =>
    rw [if_pos rfl] at h
    obtain rfl := Option.some.inj h
    refine ⟨_, ⟨seq, version, .ended true⟩, hk, rfl, rfl, rfl, rfl, rfl,
      fun p hp => ?_, .inr ⟨rfl, snapshotSeq_saveSnapshot s.store seq version x⟩⟩
    obtain hp | hp := List.mem_append.mp hp
    · exact .inl (List.mem_filter.mp hp).1
    · exact .inr (by rw [List.mem_singleton.mp hp])
  · exact absurd h (by simp)

/-- **A step that leaves the distance and the counter alone**, or lands a write
that is waited for. -/
structure Alike (s s' : Sys S Env Op) : Prop where
  head : s'.head = s.head
  since : s'.since = s.since
  currentSeq : s'.host.currentSeq = s.host.currentSeq
  dirty : s'.host.snapshotDirty = s.host.snapshotDirty
  overtaken : s.Overtaken → s'.Overtaken ∧ s'.live = s.live
  writing : ∀ k, s.Writing k → s'.Writing k

namespace Alike

variable {cfg : HostConfig S Env Op} {s s' : Sys S Env Op}

theorem of_eq (events : s'.store.events = s.store.events)
    (snapshots : s'.store.snapshots = s.store.snapshots)
    (saves : s'.host.saves = s.host.saves)
    (since : s'.host.eventsSinceSnapshot = s.host.eventsSinceSnapshot)
    (currentSeq : s'.host.currentSeq = s.host.currentSeq)
    (dirty : s'.host.snapshotDirty = s.host.snapshotDirty) : Alike s s' := by
  have hhead : s'.head = s.head :=
    congrArg (fun es : List EventRow => (es.length : ℤ)) events
  have hlive : s'.live = s.live := congrArg snapshotSeq snapshots
  have hsince : s'.since = s.since := congrArg Nat.cast since
  refine ⟨hhead, hsince, currentSeq, dirty, fun h => ⟨?_, hlive⟩, fun k h => ?_⟩
  · unfold Sys.Overtaken
    rw [saves, hlive]
    exact h
  · unfold Sys.Writing
    rw [saves, hlive, hhead, hsince, currentSeq]
    exact h

theorem beside (h : Beside s s') (ht : s.host.timerFlushes = []) : Alike s s' :=
  of_eq h.events h.snapshots h.saves (h.eventsSinceSnapshot ht) h.currentSeq
    h.snapshotDirty

theorem idle (h : Alike s s') (hi : s.Idle) : s'.Idle := by
  obtain ⟨ho, hlive⟩ := h.overtaken hi.1
  refine ⟨ho, ?_⟩
  rw [h.head, hlive, h.since]
  exact hi.2

theorem counted (h : Alike s s') (hc : s.Counted) : s'.Counted := by
  obtain ⟨ho, hlive⟩ := h.overtaken hc.1
  refine ⟨ho, ?_⟩
  rw [h.head, hlive, h.since]
  exact hc.2

theorem close (h : Alike s s') (hc : s.Close cfg) : s'.Close cfg := by
  refine ⟨h.counted hc.1, ?_⟩
  rw [h.head, h.currentSeq, h.since]
  exact hc.2

/-- A write that lands is the one that is awaited, or below the live
snapshot. -/
theorem saveStep {k : ℕ} (h : s.saveStep k true = some s') : Alike s s' := by
  obtain ⟨sv, sv', hk, hend, hseq, hhost, hevents, -, -, hland⟩ := Sys.saveStep_true h
  have hget : ∀ j, s'.host.saves[j]? = if j = k then some sv' else s.host.saves[j]? := by
    intro j
    rw [hhost]
    show (s.host.saves.set k sv')[j]? = _
    rw [List.getElem?_set]
    by_cases hjk : j = k
    · rw [if_pos hjk.symm, if_pos hjk, if_pos (hjk ▸ (List.getElem?_eq_some_iff.mp hk).1)]
    · rw [if_neg (Ne.symm hjk), if_neg hjk]
  have hhead : s'.head = s.head :=
    congrArg (fun es : List EventRow => (es.length : ℤ)) hevents
  have hlive : sv.seq ≤ s.live → s'.live = s.live := by
    intro hle
    obtain ⟨-, he⟩ | ⟨-, he⟩ := hland
    · exact he
    · rw [he, max_eq_left hle]
  refine ⟨hhead, by rw [Sys.since, hhost]; rfl, by rw [hhost], by rw [hhost],
    fun ho => ⟨fun j sv₁ hj he => ?_, hlive (ho k sv hk hend)⟩, fun i hw => ?_⟩
  · rw [hlive (ho k sv hk hend)]
    rw [hget] at hj
    split at hj
    · rw [← Option.some.inj hj, hseq]
      exact ho k sv hk hend
    · exact ho j sv₁ hj he
  · obtain ⟨hq, hothers, sv₀, hi, hseq₀, hst⟩ := hw
    by_cases hik : i = k
    · -- the write that is awaited
      subst hik
      obtain rfl := Option.some.inj (hi.symm.trans hk)
      have hcounted := (hst.resolve_right (fun hst => by
        rw [hst.1] at hend
        exact absurd hend (by simp [SavePc.isEnded]))).2
      have hle : s.live ≤ s.head := by
        have h0 : 0 ≤ s.since := Int.natCast_nonneg _
        omega
      refine ⟨by rw [hhost, hhead]; exact hq, fun j sv₁ hj hji he => ?_, sv', ?_, ?_, ?_⟩
      · rw [hget, if_neg hji] at hj
        have hbelow := hothers j sv₁ hj hji he
        obtain ⟨-, he⟩ | ⟨-, he⟩ := hland
        · rw [he]
          exact hbelow
        · rw [he]
          exact le_max_of_le_left hbelow
      · rw [hget, if_pos rfl]
      · rw [hseq, hhead]
        exact hseq₀
      · obtain ⟨hpc, he⟩ | ⟨hpc, he⟩ := hland
        · refine .inl ⟨hpc, ?_⟩
          rw [hhead, he, Sys.since, hhost]
          exact hcounted
        · exact .inr ⟨hpc, by rw [he, hhead, hseq₀, max_eq_right hle]⟩
    · have hbelow := hlive (hothers k sv hk (Ne.symm hik) hend)
      refine ⟨by rw [hhost, hhead]; exact hq, fun j sv₁ hj hji he => ?_, sv₀, ?_, ?_, ?_⟩
      · rw [hbelow]
        rw [hget] at hj
        split at hj
        · next hjk =>
          rw [← Option.some.inj hj, hseq]
          exact hothers k sv hk (hjk ▸ hji) hend
        · exact hothers j sv₁ hj hji he
      · rw [hget, if_neg hik]
        exact hi
      · rw [hhead]
        exact hseq₀
      · rw [hhead, hbelow, Sys.since, hhost]
        exact hst

end Alike

/-! ## What the counter is worth, from one await to the next

A worker or an activation goes from one of these situations to another; an
issued write turns the distance into what is written and what is left. -/

section

variable {cfg : HostConfig S Env Op} {s s' : Sys S Env Op}

theorem Sys.Counted.idle (h : s.Counted) : s.Idle :=
  ⟨h.1, fun he => by rw [h.2, he, sub_self]⟩

/-- **The write that is awaited has landed**: the live snapshot is of the head of
the log. -/
theorem Sys.Writing.landed {k : ℕ} (h : s.Writing k)
    (hr : s.host.saveResult k = some true) : s.Overtaken ∧ s.live = s.head := by
  obtain ⟨-, hothers, sv, hk, -, hst⟩ := h
  have hpc : sv.pc = .ended true := by
    unfold Host.saveResult at hr
    rw [hk] at hr
    obtain ⟨seq, version, pc⟩ := sv
    cases pc with
    | ended ok => exact congrArg SavePc.ended (Option.some.inj hr)
    | _ => exact absurd hr (by simp)
  refine ⟨fun j sv' hj he => ?_, (hst.resolve_left (fun hst => ?_)).2⟩
  · by_cases hjk : j = k
    · subst hjk
      obtain rfl := Option.some.inj (hk.symm.trans hj)
      exact absurd he (by simp [hpc, SavePc.isEnded])
    · exact hothers j sv' hj hjk he
  · exact absurd hst.1 (by simp [hpc, SavePc.isEnded])

/-- A flush of the head of the log is awaited from where the counter is the
distance. -/
theorem Sys.Counted.writing (hc : s.Counted) (sv : Save S)
    (hq : s.host.currentSeq = s.head) (hsv : sv.pc.isEnded = false) (hseq : sv.seq = s.head)
    (saves : s'.host.saves = s.host.saves ++ [sv])
    (events : s'.store.events = s.store.events)
    (snapshots : s'.store.snapshots = s.store.snapshots)
    (since : s'.host.eventsSinceSnapshot = s.host.eventsSinceSnapshot)
    (currentSeq : s'.host.currentSeq = s.host.currentSeq) :
    s'.Writing s.host.saves.length := by
  have hhead : s'.head = s.head :=
    congrArg (fun es : List EventRow => (es.length : ℤ)) events
  have hlive : s'.live = s.live := congrArg snapshotSeq snapshots
  have hsince : s'.since = s.since := congrArg Nat.cast since
  refine ⟨by rw [currentSeq, hhead]; exact hq, fun j sv' hj hne he => ?_, sv, ?_, ?_, ?_⟩
  · rw [saves] at hj
    rw [hlive]
    refine hc.1 j sv' ?_ he
    have hlt := (List.getElem?_eq_some_iff.mp hj).1
    rw [List.length_append, List.length_singleton] at hlt
    rwa [List.getElem?_append_left (by omega)] at hj
  · rw [saves, List.getElem?_concat_length]
  · rw [hhead]
    exact hseq
  · refine .inl ⟨hsv, ?_⟩
    rw [hsince, hhead, hlive]
    exact hc.2

/-- A write that will not be the live snapshot is issued. -/
theorem Sys.Idle.issue (hi : s.Idle) (sv : Save S) (hseq : sv.seq ≤ s.live)
    (saves : s'.host.saves = s.host.saves ++ [sv]) (store : s'.store = s.store)
    (since : s'.host.eventsSinceSnapshot = s.host.eventsSinceSnapshot) : s'.Idle := by
  have hlive : s'.live = s.live := by rw [Sys.live, store]; rfl
  refine ⟨fun j sv' hj he => ?_, ?_⟩
  · rw [hlive]
    rw [saves, List.getElem?_append] at hj
    split at hj
    · exact hi.1 j sv' hj he
    · obtain rfl := List.mem_singleton.mp (List.mem_of_getElem? hj)
      exact hseq
  · rw [Sys.head, store, hlive, Sys.since, since]
    exact hi.2

theorem ActPc.meters_of_beside {pc : ActPc S Env} (h : pc.beside = true) :
    pc.Meters cfg s := by
  cases pc <;> trivial

theorem WorkerPc.meters_after {item : Item} {p : Script S Json} (hc : s.Close cfg) :
    (WorkerPc.after item p).Meters cfg s := by
  unfold WorkerPc.after
  cases p.next <;> exact hc

/-- An activation that has not opened the actor yet does not count. -/
theorem ActPc.Meters.idle {pc : ActPc S Env} (h : pc.Meters cfg s)
    (hb : pc.beside = false) (hw : ∀ k, pc ≠ .replayFlush k) : s.Idle := by
  cases pc with
  | replayFlush k => exact absurd rfl (hw k)
  | onActivate hook => exact h.1.idle
  | loadSnapshot => exact absurd hb (by simp [ActPc.beside])
  | readInbox => exact absurd hb (by simp [ActPc.beside])
  | replayInbox pending => exact absurd hb (by simp [ActPc.beside])
  | finishing o => exact absurd hb (by simp [ActPc.beside])
  | _ => exact h.1

namespace Alike

theorem act (h : Alike s s') {pc : ActPc S Env} (hm : pc.Meters cfg s) :
    pc.Meters cfg s' := by
  have hlive : s.Idle → s'.live = s.live := fun hi => (h.overtaken hi.1).2
  cases pc with
  | resolveCtor snap => exact ⟨h.idle hm.1, by rw [hlive hm.1]; exact hm.2⟩
  | loadFence snap r =>
    exact ⟨h.idle hm.1, by rw [hlive hm.1]; exact hm.2.1, hm.2.2⟩
  | register => exact ⟨h.idle hm.1, by rw [hlive hm.1]; exact hm.2⟩
  | replayFlush k => exact h.writing k hm
  | onActivate hook => exact h.close hm
  | loadSnapshot => trivial
  | readInbox => trivial
  | replayInbox pending => trivial
  | finishing o => trivial
  | _ => exact ⟨h.idle hm.1, by rw [hlive hm.1, h.currentSeq]; exact hm.2⟩

theorem worker (h : Alike s s') {pc : WorkerPc S} (hm : pc.Meters cfg s) :
    pc.Meters cfg s' := by
  cases pc with
  | appending item events writes => exact ⟨h.close hm.1, hm.2⟩
  | appended item events seq =>
    obtain ⟨ho, hlive⟩ := h.overtaken hm.1
    refine ⟨ho, by rw [h.head]; exact hm.2.1, ?_⟩
    rw [h.since, h.head, hlive]
    exact hm.2.2
  | acking item id after =>
    cases after with
    | swm => exact hm
    | esEmpty => exact h.close hm
    | es events =>
      exact ⟨h.counted hm.1, by rw [h.currentSeq, h.head]; exact hm.2.1,
        h.dirty.trans hm.2.2⟩
  | flushing item k => exact h.writing k hm
  | _ => exact h.close hm

theorem deact (h : Alike s s') {pc : DeactPc S}
    (dead : ∀ g, (s'.host.workers g).stage.alive = false →
      (s.host.workers g).stage.alive = false)
    (hm : pc.Meters cfg s) : pc.Meters cfg s' := by
  cases pc with
  | awaitWorker g => exact fun hg => h.close (hm (dead g hg))
  | flush k => exact h.writing k hm
  | onDeactivate hook => exact h.counted hm
  | finishing o =>
    cases o with
    | ok u => exact h.counted hm
    | error e => exact hm

end Alike

namespace Beside

/-- No worker returns beside the state. -/
theorem dead (h : Beside s s') {g : ℕ} (hg : (s'.host.workers g).stage.alive = false) :
    (s.host.workers g).stage.alive = false := by
  obtain he | ⟨-, ⟨item, he⟩ | he⟩ := h.workers g
  · exact he ▸ hg
  · exact absurd hg (by simp [he, WorkerPc.stage, WorkerStage.alive])
  · exact absurd hg (by simp [he, WorkerPc.stage, WorkerStage.alive])

/-- The worker that a deactivation begins to await is alive. -/
theorem alive (h : Beside s s') (hl : Lifecycle s.flow.toLife)
    (hl' : Lifecycle s'.flow.toLife) (hnone : s.host.deactivating = none) {g : ℕ}
    {idle : Bool} (hd : s'.host.deactivating = some ⟨.awaitWorker g, idle⟩) :
    (s'.host.workers g).stage.alive = true := by
  have ha' : s'.host.activated = true := hl'.activated_of_deact hd
  have ha : s.flow.activated = true := h.activated.symm.trans ha'
  have hdeact : s.flow.deact = none := congrArg (Option.map _) hnone
  have hp' := hl'.present ha' (by rw [Sys.flow_deact hd]; simp [DeactPc.stage])
  have hp := hl.present ha (by rw [hdeact]; simp)
  have hg : s.flow.workerPromise = some g :=
    hp.2.symm.trans (h.inst.symm.trans (hp'.2.trans (hl'.awaiting g (Sys.flow_deact hd))))
  by_contra hdead
  have hserve : (s.host.workers g).stage.serving = false := by
    have hdead := h.dead (by simpa using hdead)
    revert hdead
    cases (s.host.workers g).stage <;> simp [WorkerStage.alive, WorkerStage.serving]
  exact absurd (hl.spent g ha hg hserve).1 (by rw [hl.attended ha hdeact]; simp)

end Beside

/-! ## Segments that leave the log and the writes alone

Most segments of user code and of the worker: only where the counter is read
does anything happen. -/

/-- **A segment that leaves the counter, the log and the snapshots alone.** -/
structure Steady (s s' : Sys S Env Op) : Prop where
  snapshotTimer : s'.host.snapshotTimer = s.host.snapshotTimer
  timerFlushes : s'.host.timerFlushes = s.host.timerFlushes
  saves : s'.host.saves = s.host.saves
  eventsSinceSnapshot : s'.host.eventsSinceSnapshot = s.host.eventsSinceSnapshot
  snapshots : s'.store.snapshots = s.store.snapshots
  events : s'.store.events = s.store.events
  row : s'.store.row = none → s.store.row = none

namespace Steady

theorem live (h : Steady s s') : s'.live = s.live := congrArg snapshotSeq h.snapshots

theorem head (h : Steady s s') : s'.head = s.head :=
  congrArg (fun es : List EventRow => (es.length : ℤ)) h.events

theorem since (h : Steady s s') : s'.since = s.since :=
  congrArg Nat.cast h.eventsSinceSnapshot

theorem overtaken (h : Steady s s') (ho : s.Overtaken) : s'.Overtaken := by
  unfold Sys.Overtaken
  rw [h.saves, h.live]
  exact ho

theorem idle (h : Steady s s') (hi : s.Idle) : s'.Idle := by
  refine ⟨h.overtaken hi.1, ?_⟩
  rw [h.head, h.live, h.since]
  exact hi.2

theorem counted (h : Steady s s') (hc : s.Counted) : s'.Counted := by
  refine ⟨h.overtaken hc.1, ?_⟩
  rw [h.head, h.live, h.since]
  exact hc.2

theorem close (h : Steady s s') (hq : s'.host.currentSeq = s.host.currentSeq)
    (hc : s.Close cfg) : s'.Close cfg := by
  refine ⟨h.counted hc.1, ?_⟩
  rw [h.head, hq, h.since]
  exact hc.2

theorem gauged (h : Steady s s') (hg : Gauged s) (es : s'.host.cls.isEs = true) :
    Gauged s' where
  es := es
  timer := h.snapshotTimer.trans hg.timer
  timerFlushes := h.timerFlushes.trans hg.timerFlushes
  stored := by
    rw [h.snapshots, h.head]
    exact hg.stored
  writes := by
    rw [h.saves, h.head]
    exact hg.writes
  unheard hr := h.snapshots.trans (hg.unheard (h.row hr))

end Steady

/-- A write of the head of the log, or of an earlier seq, is issued. -/
theorem Gauged.issue (h : Gauged s) (sv : Save S) (hseq : sv.seq ≤ s.head)
    (hsv : sv.pc.isEnded = false) (es : s'.host.cls.isEs = true)
    (timer : s'.host.snapshotTimer = false)
    (timerFlushes : s'.host.timerFlushes = s.host.timerFlushes)
    (saves : s'.host.saves = s.host.saves ++ [sv]) (store : s'.store = s.store) :
    Gauged s' where
  es := es
  timer := timer
  timerFlushes := timerFlushes.trans h.timerFlushes
  stored := by
    unfold Sys.head
    rw [store]
    exact h.stored
  writes := by
    unfold Sys.head
    rw [saves, store]
    intro sv' hsv'
    obtain hsv' | hsv' := List.mem_append.mp hsv'
    · exact h.writes sv' hsv'
    · rw [List.mem_singleton.mp hsv']
      exact ⟨hseq, fun he => absurd hsv (by simp [he, SavePc.isEnded])⟩
  unheard hr := by
    rw [store] at hr ⊢
    exact h.unheard hr

/-- The live snapshot is not above the head of the log. -/
theorem Gauged.live_le (h : Gauged s) : s.live ≤ s.head := by
  obtain he | ⟨q, hq, he⟩ := snapshotSeq_mem s.store.snapshots
  · exact he.le.trans (Int.natCast_nonneg _)
  · exact he.ge.trans (h.stored q hq)

/-- Once a flush has ended, the counter is zero. -/
theorem Gauged.since_flushed (h : Gauged s) :
    Sys.since { s with host := s.host.flushed } = 0 := by
  show ((if s.host.cls.isEs = true then 0 else s.host.eventsSinceSnapshot : ℕ) : ℤ) = 0
  rw [if_pos h.es]
  rfl

theorem Gauged.flushed (h : Gauged s) : Gauged { s with host := s.host.flushed } :=
  ⟨h.es, h.timer, h.timerFlushes, h.stored, h.writes, h.unheard⟩

/-- **After a flush of the head of the log**, both are zero. -/
theorem Sys.Writing.counted {k : ℕ} (h : s.Writing k) (hg : Gauged s)
    (hr : s.host.saveResult k = some true) :
    Sys.Counted { s with host := s.host.flushed } := by
  obtain ⟨ho, hlive⟩ := h.landed hr
  have hlive : Sys.live { s with host := s.host.flushed }
      = Sys.head { s with host := s.host.flushed } := hlive
  exact ⟨ho, by rw [hg.since_flushed, hlive, sub_self]⟩

theorem Sys.Writing.close {k : ℕ} (h : s.Writing k)
    (hn : 1 ≤ cfg.registration.snapshotEveryNEvents) (hg : Gauged s)
    (hr : s.host.saveResult k = some true) :
    Sys.Close cfg { s with host := s.host.flushed } := by
  refine ⟨h.counted hg hr, h.1, ?_⟩
  rw [hg.since_flushed]
  exact_mod_cast hn

/-- No write fails. -/
theorem Gauged.saveResult (h : Gauged s) (k : ℕ) :
    s.host.saveResult k ≠ some false := by
  intro hr
  unfold Host.saveResult at hr
  split at hr
  · next hk =>
    obtain rfl := Option.some.inj hr
    exact (h.writes _ (List.mem_of_getElem? hk)).2 rfl
  · exact absurd hr (by simp)

end

/-- Storage operations succeed. -/
def Act.succeeds : Act Env → Bool
  | .tellLand _ ok => ok
  | .activation _ ok => ok
  | .worker _ _ ok => ok
  | .save _ ok => ok
  | _ => true

/-- The fold of a batch does not throw. -/
def Sys.reduces (s : Sys S Env Op) : Act Env → Bool
  | .worker g _ _ =>
    match s.host.workers g with
    | .appended _ events _ => (foldEvents s.host.cls s.host.state events).isOk
    | _ => true
  | _ => true

/-- **The actor is event-sourced**, in every version of its class. -/
structure HostConfig.EventSourced (cfg : HostConfig S Env Op) : Prop where
  registered : cfg.registration.ctor.isEs = true
  loaded : ∀ load, cfg.loader = some load → ∀ name version ctor,
    load name version = .ok ctor → ctor.isEs = true

theorem HostConfig.EventSourced.resolveCtor {cfg : HostConfig S Env Op}
    (h : cfg.EventSourced) {persisted : Option Version} {ok : Bool}
    {r : Resolved S Env} (hr : cfg.resolveCtor persisted ok = .ok r) :
    r.ctor.isEs = true := by
  unfold HostConfig.resolveCtor at hr
  dsimp only at hr
  cases persisted with
  | none =>
    obtain rfl := Except.ok.inj hr
    exact h.registered
  | some p =>
    dsimp only at hr
    split at hr
    · obtain rfl := Except.ok.inj hr
      exact h.registered
    split at hr
    · exact absurd hr (by simp)
    split at hr
    · obtain rfl := Except.ok.inj hr
      exact h.registered
    split at hr
    · exact absurd hr (by simp)
    · next load hload =>
      split at hr
      · cases hc : load cfg.registration.name p with
        | error e =>
          rw [hc] at hr
          exact absurd hr (by simp [Except.map])
        | ok c =>
          rw [hc] at hr
          obtain rfl := Except.ok.inj hr
          exact h.loaded load hload _ _ c hc
      · exact absurd hr (by simp)

/-! ## Replays

A replay folds every event after the live snapshot, and counts as many. -/

/-- A replay that throws nothing counts what it reads, and ends at the last. -/
theorem Sys.replayLoop_counts {cls : ActorClass S Env} {version : Version}
    {es : List EventRow} {acc : Sys.Replayed S}
    (h : (Sys.replayLoop cls version acc (numberedFrom acc.seq es)).thrown = none) :
    (Sys.replayLoop cls version acc (numberedFrom acc.seq es)).count
        = acc.count + es.length
      ∧ (Sys.replayLoop cls version acc (numberedFrom acc.seq es)).seq
        = acc.seq + es.length := by
  induction es generalizing acc with
  | nil => exact ⟨rfl, by simp [numberedFrom, Sys.replayLoop]⟩
  | cons e es ih =>
    rw [numberedFrom, Sys.replayLoop] at h ⊢
    cases hr : (Sys.replayedEvent cls version e).bind (cls.reduce acc.state) with
    | error x =>
      rw [hr] at h
      exact absurd h (by simp)
    | ok x =>
      rw [hr] at h
      obtain ⟨hcount, hseq⟩ := @ih ⟨x, acc.seq + 1, acc.count + 1, none⟩ h
      dsimp only at hcount hseq ⊢
      rw [hcount, hseq, List.length_cons]
      push_cast
      constructor <;> omega

/-- Reading after a seq of the log is reading the rest. -/
theorem ActorStore.readEvents_from {st : ActorStore S} (hrow : st.row ≠ none) {n : ℤ}
    (h0 : 0 ≤ n) (hle : n ≤ st.headEventSeq) :
    ∃ es, st.readEvents (n + 1) = numberedFrom n es
      ∧ n + es.length = st.headEventSeq := by
  obtain ⟨r, hr⟩ := Option.ne_none_iff_exists'.mp hrow
  obtain ⟨m, rfl⟩ := Int.eq_ofNat_of_zero_le h0
  have hm : m ≤ st.events.length := by
    rw [ActorStore.headEventSeq] at hle
    exact_mod_cast hle
  have hlen : (st.events.take m).length = m := by
    rw [List.length_take]
    exact Nat.min_eq_left hm
  have hread := ActorStore.readEvents_after hr
    (List.take_append_drop m st.events).symm
  rw [hlen] at hread
  refine ⟨_, hread, ?_⟩
  rw [ActorStore.headEventSeq, List.length_drop]
  push_cast [hm]
  omega

/-! ## The steps -/

namespace Metered

variable {cfg : HostConfig S Env Op} {s s' t : Sys S Env Op} {env : Env} {g : ℕ}

/-- A host that was just constructed counts nothing. -/
theorem init {store : ActorStore S} (es : cfg.registration.ctor.isEs = true)
    (stored : ∀ p ∈ store.snapshots, p.fst ≤ store.headEventSeq)
    (unheard : store.row = none → store.snapshots = []) :
    Metered cfg (Sys.init cfg store) where
  gauged :=
    { es
      timer := rfl
      timerFlushes := rfl
      stored
      writes := fun _ hsv => absurd hsv List.not_mem_nil
      unheard }
  resting _ _ := ⟨fun j sv hj => absurd hj (by simp [Sys.init, Host.init]),
    fun _ => rfl⟩
  opening _ hpc := absurd hpc (by simp [Sys.init, Host.init])
  working g hg := absurd hg (by simp [Sys.init, Host.init, WorkerPc.stage,
    WorkerStage.alive])
  ending _ hd := absurd hd (by simp [Sys.init, Host.init])

/-- **An activation goes on**, and the host is not activated yet. -/
theorem opened (hl : Lifecycle s.flow.toLife) (ha : s.host.activated = false)
    (hg : Gauged s) {pc : ActPc S Env} (hpc : s.host.activating = some pc)
    (hm : pc.Meters cfg s) (hi : pc.beside = true → s.Idle) : Metered cfg s where
  gauged := hg
  resting _ hb := hi (hb pc hpc)
  opening pc' hpc' := by
    obtain rfl := Option.some.inj (hpc.symm.trans hpc')
    exact hm
  working g hw := absurd (hl.alive g hw).1 (by
    show s.host.activated ≠ true
    rw [ha]
    simp)
  ending d hd := absurd (hl.activated_of_deact hd) (by rw [ha]; simp)

/-- **A turn goes on.** -/
theorem turned (hl : Lifecycle s.flow.toLife) (hl' : Lifecycle s'.flow.toLife)
    (hg : Gauged s') (hw : (s.host.workers g).stage.alive = true)
    (workers : ∀ g' ≠ g, s'.host.workers g' = s.host.workers g')
    (activated : s'.host.activated = s.host.activated)
    (deactivating : s'.host.deactivating = s.host.deactivating)
    (hm : (s'.host.workers g).Meters cfg s')
    (hdone : (s'.host.workers g).stage.alive = false → s'.Close cfg) :
    Metered cfg s' where
  gauged := hg
  resting ha := absurd (hl.alive g hw).1 (by
    show s.host.activated ≠ true
    rw [← activated, ha]
    simp)
  opening pc hpc := ActPc.meters_of_beside
    (hl'.beside (activated.trans (hl.alive g hw).1) hpc)
  working g' hg' := by
    by_cases hne : g' = g
    · rw [hne]
      exact hm
    · rw [workers g' hne] at hg'
      exact absurd (hl.only hw hg') hne
  ending d hd := by
    rw [deactivating] at hd
    obtain ⟨g', he⟩ := hl.awaits hw hd
    obtain ⟨pc, idle⟩ := d
    obtain rfl : pc = _ := he
    have hg' := hl.awaiting g' (Sys.flow_deact hd)
    obtain rfl := Option.some.inj (hg'.symm.trans (hl.alive g hw).2)
    exact hdone

/-- **A deactivation goes on**, its worker having returned. -/
theorem ended (hg : Gauged s')
    (hw : ∀ g, (s'.host.workers g).stage.alive = false)
    (hd : ∀ d, s'.host.deactivating = some d → d.pc.Meters cfg s')
    (hi : s'.host.activated = false → s'.Idle)
    (ho : ∀ pc, s'.host.activating = some pc → pc.beside = true) :
    Metered cfg s' where
  gauged := hg
  resting ha _ := hi ha
  opening pc hpc := ActPc.meters_of_beside (ho pc hpc)
  working g hg' := absurd hg' (by rw [hw g]; simp)
  ending := hd

/-- A step that has nothing to do with the lifecycle. -/
theorem still (h : Metered cfg s) (hg : Gauged s') (ha : Alike s s')
    (activated : s'.host.activated = s.host.activated)
    (workers : s'.host.workers = s.host.workers)
    (activating : s'.host.activating = s.host.activating)
    (deactivating : s'.host.deactivating = s.host.deactivating) :
    Metered cfg s' where
  gauged := hg
  resting hn hb := ha.idle (h.resting (activated ▸ hn) (activating ▸ hb))
  opening pc hpc := ha.act (h.opening pc (activating ▸ hpc))
  working g hg' := by
    rw [workers] at hg' ⊢
    exact ha.worker (h.working g hg')
  ending d hd := ha.deact (fun g hg' => workers ▸ hg') (h.ending d (deactivating ▸ hd))

/-- **Requests**, and what asks for a deactivation. -/
theorem of_beside (h : Metered cfg s) (hl : Lifecycle s.flow.toLife)
    (hl' : Lifecycle s'.flow.toLife) (hb : Beside s s') : Metered cfg s' := by
  have ha : Alike s s' := .beside hb h.gauged.timerFlushes
  have hsteady : Steady s s' :=
    { snapshotTimer := hb.snapshotTimer
      timerFlushes := by
        have hsub := hb.timerFlushes
        rw [h.gauged.timerFlushes] at hsub ⊢
        exact List.subset_nil.mp hsub
      saves := hb.saves
      eventsSinceSnapshot := hb.eventsSinceSnapshot h.gauged.timerFlushes
      snapshots := hb.snapshots
      events := hb.events
      row := fun hr => hb.row ▸ hr }
  refine
    { gauged := hsteady.gauged h.gauged (hb.cls ▸ h.gauged.es)
      resting := fun hn hbeside =>
        ha.idle (h.resting (hb.activated ▸ hn) (fun pc hpc => ?_))
      opening := fun pc hpc => ?_
      working := fun g hg => ?_
      ending := fun d hd => ?_ }
  · obtain he | ⟨he, -⟩ := hb.activating
    · exact hbeside pc (he ▸ hpc)
    · exact he pc hpc
  · by_cases hpb : pc.beside = true
    · exact ActPc.meters_of_beside hpb
    · exact ha.act (h.opening pc (hb.activating_eq hpc (by simpa using hpb)))
  · obtain he | ⟨hw, hto⟩ := hb.workers g
    · rw [he] at hg ⊢
      exact ha.worker (h.working g hg)
    · have hclose : s.Close cfg := by
        have hm := h.working g (by rw [hw]; rfl)
        rw [hw] at hm
        exact hm
      obtain ⟨item, he⟩ | he := hto
      · rw [he]
        exact ha.close hclose
      · rw [he]
        exact ha.close hclose
  · obtain he | ⟨hnone, g, idle, he⟩ := hb.deactivating
    · exact ha.deact (fun g hg => hb.dead hg) (h.ending d (he ▸ hd))
    · obtain rfl := Option.some.inj (he.symm.trans hd)
      exact fun hg => absurd hg (by rw [hb.alive hl hl' hnone he]; simp)

/-- An activation that throws leaves the counter where it is. -/
theorem failed (hl' : Lifecycle s'.flow.toLife) (ha : s'.host.activated = false)
    (hg : Gauged s) (hi : s.Idle) (hst : Steady s s') (es : s'.host.cls.isEs = true)
    {o : Except HostError Unit} (hpc : s'.host.activating = some (.finishing o)) :
    Metered cfg s' :=
  opened hl' ha (hst.gauged hg es) hpc trivial (fun _ => hst.idle hi)

/-- The counter is the distance when the host opens. -/
theorem becomeActivated (hl : Lifecycle t.becomeActivated.flow.toLife)
    (hd : t.host.deactivating = none) (hg : Gauged t) (hc : t.Close cfg) :
    Metered cfg t.becomeActivated := by
  have hsteady : Steady t t.becomeActivated := ⟨rfl, rfl, rfl, rfl, rfl, rfl, id⟩
  have hclose : t.becomeActivated.Close cfg := hsteady.close rfl hc
  exact
    { gauged := hsteady.gauged hg hg.es
      resting := fun hn => absurd hn (by simp [Sys.becomeActivated, Sys.dequeue,
        Sys.setActivating])
      opening := fun pc hpc => by
        obtain rfl := Option.some.inj hpc
        trivial
      working := fun g hg' => by
        have hp := (hl.alive g hg').2
        obtain rfl : t.host.activation = g := Option.some.inj hp
        have hpc : t.becomeActivated.host.workers t.host.activation
            = Sys.dequeuedPc (t.host.mailbox.dequeue t.host.activation).result :=
          Function.update_self _ _ _
        rw [hpc]
        cases (t.host.mailbox.dequeue t.host.activation).result <;> exact hclose
      ending := fun d hd' => absurd (hd.symm.trans hd') (by simp) }

theorem beginOnActivate (hl : Lifecycle (t.beginOnActivate env).flow.toLife)
    (ha : t.host.activated = false) (hd : t.host.deactivating = none) (hg : Gauged t)
    (hc : t.Close cfg) : Metered cfg (t.beginOnActivate env) := by
  unfold Sys.beginOnActivate at hl ⊢
  cases hf : t.host.cls.onActivate with
  | none =>
    rw [hf] at hl
    exact becomeActivated hl hd hg hc
  | some f =>
    rw [hf] at hl
    have hsteady : Steady t ((t.runSegment (f env t.host.state)).setActivating
        (.onActivate (.after (f env t.host.state)))) :=
      ⟨rfl, rfl, rfl, rfl, rfl, rfl, id⟩
    exact opened hl ha (hsteady.gauged hg hg.es) rfl (hsteady.close rfl hc)
      (fun hb => absurd hb (by simp [ActPc.beside]))

/-- It replays what the live snapshot does not have. -/
theorem beginReplay (hl : Lifecycle (t.beginReplay env).flow.toLife)
    (ha : t.host.activated = false) (hg : Gauged t) (hi : t.Idle)
    (hq : t.host.currentSeq = t.live) : Metered cfg (t.beginReplay env) := by
  unfold Sys.beginReplay at hl ⊢
  rw [if_pos hg.es] at hl ⊢
  have hsteady : Steady t (t.setActivating .headSeq) := ⟨rfl, rfl, rfl, rfl, rfl, rfl, id⟩
  exact opened hl ha (hsteady.gauged hg hg.es) rfl ⟨hsteady.idle hi, hq⟩
    (fun hb => absurd hb (by simp [ActPc.beside]))

theorem beginOnInit (hl : Lifecycle (t.beginOnInit env).flow.toLife)
    (ha : t.host.activated = false) (hg : Gauged t) (hi : t.Idle)
    (hq : t.host.currentSeq = t.live) : Metered cfg (t.beginOnInit env) := by
  unfold Sys.beginOnInit at hl ⊢
  cases hf : t.host.cls.onInit with
  | none =>
    rw [hf] at hl
    have hst : Steady t t.boundary := ⟨rfl, rfl, rfl, rfl, rfl, rfl, id⟩
    exact beginReplay hl ha (hst.gauged hg hg.es) (hst.idle hi) hq
  | some f =>
    rw [hf] at hl
    have hst : Steady t ((t.runSegment (f env t.host.state)).setActivating
        (.onInit (.after (f env t.host.state)))) := ⟨rfl, rfl, rfl, rfl, rfl, rfl, id⟩
    exact opened hl ha (hst.gauged hg hg.es) rfl ⟨hst.idle hi, hq⟩
      (fun hb => absurd hb (by simp [ActPc.beside]))

/-- The snapshot that is retained is below every other. -/
theorem beginMigrate {prev : SnapshotRead S}
    (hl : Lifecycle (t.beginMigrate prev).flow.toLife)
    (ha : t.host.activated = false) (hg : Gauged t) (hi : t.Idle)
    (hq : t.host.currentSeq = t.live) : Metered cfg (t.beginMigrate prev) := by
  unfold Sys.beginMigrate at hl ⊢
  cases hf : t.host.cls.migrate with
  | none =>
    rw [hf] at hl
    have hst : Steady t (Sys.setActivating { t with
        host := { t.host with snapshotDirty := true } } .noMigrate) :=
      ⟨rfl, rfl, rfl, rfl, rfl, rfl, id⟩
    exact opened hl ha (hst.gauged hg hg.es) rfl ⟨hst.idle hi, hq⟩
      (fun hb => absurd hb (by simp [ActPc.beside]))
  | some f =>
    rw [hf] at hl
    have hlive := snapshotSeq_nonneg t.store.snapshots
    have hneg : (-1 : ℤ) ≤ t.live := by
      rw [Sys.live]
      omega
    have hneg' : (-1 : ℤ) ≤ t.head := hneg.trans hg.live_le
    exact opened hl ha
      (hg.issue ⟨-1, _, _⟩ hneg' rfl hg.es hg.timer rfl rfl rfl) rfl
      ⟨hi.issue ⟨-1, _, _⟩ hneg rfl rfl rfl, hq⟩
      (fun hb => absurd hb (by simp [ActPc.beside]))

/-- The migrated snapshot has the seq of the one it replaces. -/
theorem migrated {x : S} (hl' : Lifecycle s'.flow.toLife)
    (ha : s.host.activated = false) (hg : Gauged s) (hi : s.Idle)
    (hq : s.host.currentSeq = s.live) (hs : s.migrated x = s') : Metered cfg s' := by
  unfold Sys.migrated at hs
  dsimp only at hs
  split at hs <;> obtain rfl := hs
  · have hseq : (if s.host.cls.isEs = true then s.host.currentSeq else 0) = s.live := by
      rw [if_pos hg.es, hq]
    exact opened hl' ha (hg.issue ⟨_, _, _⟩ (hseq.le.trans hg.live_le) rfl hg.es
      hg.timer rfl rfl rfl) rfl ⟨hi.issue ⟨_, _, _⟩ hseq.le rfl rfl rfl, hq⟩
      (fun hb => absurd hb (by simp [ActPc.beside]))
  · exact opened hl' ha ⟨hg.es, hg.timer, hg.timerFlushes, hg.stored, hg.writes,
      hg.unheard⟩ rfl ⟨hi, hq⟩ (fun hb => absurd hb (by simp [ActPc.beside]))

/-- **The replay**: it counts the distance, and flushes unless it is below the
threshold. -/
theorem replay (hl : Lifecycle s.flow.toLife) (hf : Flushable s)
    (hl' : Lifecycle s'.flow.toLife) (hg : Gauged s) (hi : s.Idle)
    (hq : s.host.currentSeq = s.live) (hpc : s.host.activating = some .readEvents)
    (hs : s.replay cfg env = s') : Metered cfg s' := by
  have ha : s.host.activated = false := (hl.early (.inr (Sys.flow_phase hpc))).1
  have hinst : s.host.inst.isSome = true := by
    have hc : s.host.inst = some s.host.activation := hl.constructed (Sys.flow_phase hpc)
    rw [hc]
    rfl
  have hd : s.host.deactivating = none := by
    by_contra hd
    obtain ⟨d, hd⟩ := Option.ne_none_iff_exists'.mp hd
    exact absurd (hl.activated_of_deact hd) (by rw [ha]; simp)
  obtain ⟨es, hread, hlen⟩ := ActorStore.readEvents_from
    (hf.row (.inr (.inr (.inr ⟨_, hpc, rfl⟩)))) (hq ▸ snapshotSeq_nonneg _)
    (hq ▸ hg.live_le)
  have hcounts := @Sys.replayLoop_counts _ _ s.host.cls cfg.registration.version es
    ⟨s.host.state, s.host.currentSeq, 0, none⟩
  unfold Sys.replay at hs
  rw [hread] at hs
  generalize Sys.replayLoop s.host.cls cfg.registration.version
    ⟨s.host.state, s.host.currentSeq, 0, none⟩ (numberedFrom s.host.currentSeq es)
    = acc at hs hcounts
  dsimp only at hs hcounts
  split at hs
  · obtain rfl := hs
    exact failed hl' ha hg hi ⟨rfl, rfl, rfl, rfl, rfl, rfl, id⟩ hg.es rfl
  · next hth =>
    obtain ⟨hcount, hseq⟩ := hcounts hth
    have hhead : acc.seq = s.head := hseq.trans hlen
    have hsince : (acc.count : ℤ) = s.head - s.live := by
      rw [hcount, ← hhead, hseq, hq]
      push_cast
      omega
    have hcounted : Sys.Counted { s with
        host := { s.host with
          currentSeq := acc.seq
          eventsSinceSnapshot := acc.count } } := ⟨hi.1, hsince⟩
    have hg' : Gauged { s with
        host := { s.host with
          currentSeq := acc.seq
          eventsSinceSnapshot := acc.count } } :=
      ⟨hg.es, hg.timer, hg.timerFlushes, hg.stored, hg.writes, hg.unheard⟩
    split at hs
    · obtain rfl := hs
      have hseq : (if s.host.cls.isEs = true then acc.seq else 0) = s.head := by
        rw [if_pos hg.es, hhead]
      exact opened hl' ha (hg'.issue ⟨_, _, _⟩ hseq.le rfl hg.es hg.timer rfl rfl rfl)
        rfl (hcounted.writing ⟨_, _, _⟩ hhead rfl hseq rfl rfl rfl rfl rfl)
        (fun hb => absurd hb (by simp [ActPc.beside]))
    · next hbelow =>
      obtain rfl := hs
      refine beginOnActivate hl' ha hd ⟨hg.es, hg.timer, hg.timerFlushes, hg.stored,
        hg.writes, hg.unheard⟩ ⟨hcounted, hhead, ?_⟩
      by_contra hle
      have hle : cfg.registration.snapshotEveryNEvents ≤ acc.count :=
        Int.ofNat_le.mp (not_lt.mp hle)
      refine hbelow ⟨hle, ?_⟩
      show ((s.host.snapshotDirty
        || decide (cfg.registration.snapshotEveryNEvents ≤ acc.count))
          && s.host.inst.isSome) = true
      rw [decide_eq_true hle, Bool.or_true, Bool.true_and]
      exact hinst

/-- **An activation**, from await to await. -/
theorem of_actStep {ok : Bool} (h : Metered cfg s) (hl : Lifecycle s.flow.toLife)
    (hl' : Lifecycle s'.flow.toLife) (hf : Flushable s) (hes : cfg.EventSourced)
    (hn : 1 ≤ cfg.registration.snapshotEveryNEvents)
    (hs : s.actStep cfg env ok = some s') : Metered cfg s' := by
  rcases Sys.beside_or_opens hl hs with hb | ⟨ha, pc, hpc, ht, hseg⟩
  · exact h.of_beside hl hl' hb
  have hm := h.opening pc hpc
  have hg := h.gauged
  have hd : s.host.deactivating = none := by
    by_contra hd
    obtain ⟨d, hd⟩ := Option.ne_none_iff_exists'.mp hd
    exact absurd (hl.activated_of_deact hd) (by rw [ha]; simp)
  -- the log, the writes and the counter stay as they are
  have hgoes : ∀ {pc' : ActPc S Env}, Steady s s' → s'.host.cls.isEs = true →
      s'.host.activated = s.host.activated → s'.host.activating = some pc' →
      pc'.Meters cfg s' → (pc'.beside = true → s.Idle) → Metered cfg s' :=
    fun hst es ha' hpc' hm' hi =>
      opened hl' (ha'.trans ha) (hst.gauged hg es) hpc' hm' (fun hb => hst.idle (hi hb))
  cases hseg with
  | @failed _ e hthrow =>
    refine hgoes ⟨rfl, rfl, rfl, rfl, rfl, rfl, id⟩ hg.es rfl rfl trivial (fun _ => ?_)
    cases hb : pc.beside with
    | true =>
      refine h.resting ha (fun pc' he => ?_)
      obtain rfl := Option.some.inj (hpc.symm.trans he)
      exact hb
    | false =>
      -- no write has failed
      refine hm.idle hb (fun k he => hg.saveResult k (hthrow.saveResult (by rw [he]; rfl)))
  | loadSnapshot =>
    have hi := h.resting ha (fun pc he => by
      obtain rfl := Option.some.inj (hpc.symm.trans he)
      rfl)
    have hst : Steady s (s.setActivating (.resolveCtor s.store.loadSnapshot)) :=
      ⟨rfl, rfl, rfl, rfl, rfl, rfl, id⟩
    exact hgoes hst hg.es rfl rfl ⟨hst.idle hi, ActorStore.liveSeq_eq hg.unheard⟩
      (fun _ => hi)
  | @resolveCtor snap r hr =>
    have hst : Steady s (Sys.setActivating { s with
        host := { s.host with runningVersion := r.runningVersion } }
          (.loadFence snap r)) := ⟨rfl, rfl, rfl, rfl, rfl, rfl, id⟩
    exact hgoes hst hg.es rfl rfl ⟨hst.idle hm.1, hm.2, hes.resolveCtor hr⟩ (fun _ => hm.1)
  | @blank r =>
    have hst : Steady s ((s.construct r r.ctor.blank).setActivating .register) :=
      ⟨rfl, rfl, rfl, rfl, rfl, rfl, id⟩
    exact hgoes hst hm.2.2 rfl rfl ⟨hst.idle hm.1, hst.live.trans hm.2.1.symm⟩
      (fun _ => hm.1)
  | @migrates snap r =>
    have hst : Steady s (s.loaded r snap) := ⟨rfl, rfl, rfl, rfl, rfl, rfl, id⟩
    exact beginMigrate hl' ha (hst.gauged hg hm.2.2) (hst.idle hm.1)
      (hm.2.1.trans hst.live.symm)
  | @loaded snap r =>
    have hst : Steady s (s.loaded r snap) := ⟨rfl, rfl, rfl, rfl, rfl, rfl, id⟩
    exact beginReplay hl' ha (hst.gauged hg hm.2.2) (hst.idle hm.1)
      (hm.2.1.trans hst.live.symm)
  | registerEs =>
    have hst : Steady s { s.withRow cfg with
        host :=
          { s.host with
            objs := s.host.objs.assign s.host.cls.initialState
            currentSeq := 0 } } :=
      ⟨rfl, rfl, rfl, rfl, rfl, rfl,
        fun h => absurd h (by simp [Sys.withRow, ActorStore.registerActor])⟩
    exact beginOnInit hl' ha (hst.gauged hg hg.es) (hst.idle hm.1)
      (hst.live.trans hm.2).symm
  | register _ hn' => exact absurd (hg.es.symm.trans hn') (by simp)
  | @onInit rest =>
    have hst : Steady s ((s.runSegment rest).setActivating (.onInit (.after rest))) :=
      ⟨rfl, rfl, rfl, rfl, rfl, rfl, id⟩
    exact hgoes hst hg.es rfl rfl ⟨hst.idle hm.1, hm.2⟩ (fun _ => hm.1)
  | initialized | noMigrate | audited => exact beginReplay hl' ha hg hm.1 hm.2
  | @retained prev =>
    have hst : Steady s (s.setActivating (.migrate prev)) :=
      ⟨rfl, rfl, rfl, rfl, rfl, rfl, id⟩
    exact hgoes hst hg.es rfl rfl ⟨hst.idle hm.1, hm.2⟩ (fun _ => hm.1)
  | migrated => exact migrated hl' ha hg hm.1 hm.2 rfl
  | migrateFlushed =>
    have hi : s.afterFlush.Idle := ⟨hm.1.1, fun _ => hg.since_flushed⟩
    have hst : Steady s.afterFlush (s.afterFlush.setActivating .audit) :=
      ⟨rfl, rfl, rfl, rfl, rfl, rfl, id⟩
    exact opened hl' ha (hst.gauged hg.flushed hg.es) rfl ⟨hst.idle hi, hm.2⟩
      (fun hb => absurd hb (by simp [ActPc.beside]))
  | upToDate _ hle =>
    have hle : s.head ≤ s.live := hm.2 ▸ hle
    have hhead : s.head = s.live := le_antisymm hle hg.live_le
    have hsince := hm.1.2 hhead
    refine beginOnActivate hl' ha hd hg
      ⟨⟨hm.1.1, by rw [hsince, hhead, sub_self]⟩, hm.2.trans hhead.symm, ?_⟩
    rw [hsince]
    exact_mod_cast hn
  | behind =>
    have hst : Steady s (s.setActivating .readEvents) := ⟨rfl, rfl, rfl, rfl, rfl, rfl, id⟩
    exact hgoes hst hg.es rfl rfl ⟨hst.idle hm.1, hm.2⟩ (fun _ => hm.1)
  | replayed => exact replay hl hf hl' hg hm.1 hm.2 hpc rfl
  | replayFlushed hr =>
    have hc : s.afterFlush.Close cfg := hm.close hn hg hr
    exact beginOnActivate hl' ha hd hg.flushed hc
  | @onActivate rest =>
    have hst : Steady s ((s.runSegment rest).setActivating (.onActivate (.after rest))) :=
      ⟨rfl, rfl, rfl, rfl, rfl, rfl, id⟩
    exact hgoes hst hg.es rfl rfl (hst.close rfl hm) (fun _ => hm.1.idle)
  | activated => exact becomeActivated hl' hd hg hm
  | inboxFailed | readInbox | replayInbox | settled =>
    exact absurd ht (by simp [ActPc.through])

theorem meters_setWorker {pc : WorkerPc S} (h : pc.Meters cfg (t.setWorker g pc)) :
    ((t.setWorker g pc).host.workers g).Meters cfg (t.setWorker g pc) := by
  have hpc : (t.setWorker g pc).host.workers g = pc := Function.update_self _ _ _
  rw [hpc]
  exact h

theorem alive_setWorker {pc : WorkerPc S} (h : pc.stage.alive = true) :
    ((t.setWorker g pc).host.workers g).stage.alive = true := by
  have hpc : (t.setWorker g pc).host.workers g = pc := Function.update_self _ _ _
  rw [hpc]
  exact h

/-- **The threshold**: a commit ends with a flush, or below it. -/
theorem commitEsTail {item : Item} {events : List Json} (hg : Gauged t) (hc : t.Counted)
    (hq : t.host.currentSeq = t.head) (hd : t.host.snapshotDirty = true)
    (hi : t.host.inst ≠ none) :
    Gauged (t.commitEsTail cfg g item events)
      ∧ ((t.commitEsTail cfg g item events).host.workers g).Meters cfg
        (t.commitEsTail cfg g item events)
      ∧ ((t.commitEsTail cfg g item events).host.workers g).stage.alive = true := by
  unfold Sys.commitEsTail
  dsimp only
  split
  · have hseq : (if t.host.cls.isEs = true then t.host.currentSeq else 0) = t.head := by
      rw [if_pos hg.es, hq]
    exact ⟨hg.issue ⟨_, _, _⟩ hseq.le rfl hg.es hg.timer rfl rfl rfl,
      meters_setWorker (hc.writing ⟨_, _, _⟩ hq rfl hseq rfl rfl rfl rfl rfl),
      alive_setWorker rfl⟩
  · next hbelow =>
    have hst : Steady t ((t.emit [.event events t.host.currentSeq]).setWorker g
        (.committed item)) := ⟨rfl, rfl, rfl, rfl, rfl, rfl, id⟩
    refine ⟨hst.gauged hg hg.es, meters_setWorker (hst.close rfl ⟨hc, hq, ?_⟩),
      alive_setWorker rfl⟩
    by_contra hle
    refine hbelow ⟨Int.ofNat_le.mp (not_lt.mp hle), ?_⟩
    show (t.host.snapshotDirty && t.host.inst.isSome) = true
    rw [hd, Bool.true_and]
    exact Option.isSome_iff_ne_none.mpr hi

/-- **A turn**, from await to await. -/
theorem of_workerStep (h : Metered cfg s) (hl : Lifecycle s.flow.toLife)
    (hl' : Lifecycle s'.flow.toLife)
    (hn : 1 ≤ cfg.registration.snapshotEveryNEvents)
    (hr : s.reduces (.worker g env true) = true)
    (hs : s.workerStep cfg g env true = some s') : Metered cfg s' := by
  have ht := Sys.turnPart_workerStep hs
  have hw := Sys.alive_of_workerStep hs
  have hg := h.gauged
  have hinst : s.host.inst ≠ none := hl.inst_ne_none (hl.alive g hw).1 (fun idle hd => by
    obtain ⟨g', he⟩ := hl.awaits hw hd
    exact absurd he (by simp))
  have hturn : Gauged s' → (s'.host.workers g).Meters cfg s' →
      ((s'.host.workers g).stage.alive = false → s'.Close cfg) → Metered cfg s' :=
    fun hg hm hdone => turned hl hl' hg hw ht.workers ht.activated ht.deactivating hm hdone
  have halive : Gauged s' → (s'.host.workers g).Meters cfg s' →
      (s'.host.workers g).stage.alive = true → Metered cfg s' :=
    fun hg hm ha => hturn hg hm (fun hdone => absurd hdone (by rw [ha]; simp))
  have htail : ∀ {t item events}, Sys.commitEsTail cfg t g item events = s' → Gauged t →
      t.Counted → t.host.currentSeq = t.head → t.host.snapshotDirty = true →
      t.host.inst ≠ none → Metered cfg s' := by
    rintro t item events rfl hg hc hq hd hi
    obtain ⟨hg', hm', ha'⟩ := commitEsTail hg hc hq hd hi
    exact halive hg' hm' ha'
  -- a segment that is not part of a commit
  have hclose : ∀ {pc : WorkerPc S}, s'.host.workers g = pc → Steady s s' →
      s'.host.cls = s.host.cls → s'.host.currentSeq = s.host.currentSeq → s.Close cfg →
      (s'.Close cfg → pc.Meters cfg s') → Metered cfg s' := by
    rintro pc rfl hst hcls hq hc hpc
    exact hturn (hst.gauged hg (hcls ▸ hg.es)) (hpc (hst.close hq hc))
      (fun _ => hst.close hq hc)
  obtain ⟨pc, hpc, hseg⟩ := Sys.workerSegment hs
  have hm : pc.Meters cfg s := hpc ▸ h.working g hw
  cases hseg with
  | dequeue =>
    refine hclose (Function.update_self _ _ _) ⟨rfl, rfl, rfl, rfl, rfl, rfl, id⟩
      rfl rfl hm (fun hc => ?_)
    cases (s.host.mailbox.dequeue g).result <;> exact hc
  | exit | refuse | ignore | resolveEmpty | ackEmpty | emptyAcked | ignored | finish =>
    exact hclose (Function.update_self _ _ _) ⟨rfl, rfl, rfl, rfl, rfl, rfl, id⟩
      rfl rfl hm id
  | start | run =>
    exact hclose (Function.update_self _ _ _) ⟨rfl, rfl, rfl, rfl, rfl, rfl, id⟩
      rfl rfl hm (fun hc => WorkerPc.meters_after hc)
  | append _ hw =>
    exact hclose (Function.update_self _ _ _) ⟨rfl, rfl, rfl, rfl, rfl, rfl, id⟩
      rfl rfl hm (fun hc => ⟨hc, normalizeEvents_length hw⟩)
  | resolveSwm hn' | ackSwm hn' => exact absurd (hg.es.symm.trans hn') (by simp)
  | swmAcked => exact hm.elim
  | failed e hf =>
    -- nothing fails but the handler, or what it returns
    have hc : s.Close cfg := by
      cases pc with
      | returned item' result => exact hm
      | appending item' events writes => exact hm.1
      | appended item' events seq =>
        have hfold : (foldEvents s.host.cls s.host.state events).isOk = true := by
          simpa only [Sys.reduces, hpc] using hr
        exact absurd (hf.2.symm.trans hfold) (by simp)
      | acking item' id after => exact absurd hf.2 (by simp)
      | flushing item' k => exact absurd hf.2 (hg.saveResult k)
      | _ => exact hf.elim
    exact hclose (Function.update_self _ _ _) ⟨rfl, rfl, rfl, rfl, rfl, rfl, id⟩
      rfl rfl hc id
  | @appended item events writes store seq _ happ =>
    obtain ⟨hc, hlen⟩ := hm
    obtain ⟨hsnaps, hseq, hrow, new, hnew, hpay, -⟩ := ActorStore.appendEvents_spec happ
    have hgrown : (new.length : ℤ) = events.length := by
      rw [← hlen, ← List.length_map EventWrite.payload, ← hpay, List.length_map]
    have hhead : (Sys.setWorker { s with store := store } g
        (.appended item events seq)).head = s.head + events.length := by
      show ((store.events.length : ℕ) : ℤ) = s.store.events.length + events.length
      rw [hnew, List.length_append, ← hgrown]
      push_cast
      rfl
    have hlive : (Sys.setWorker { s with store := store } g
        (.appended item events seq)).live = s.live := congrArg snapshotSeq hsnaps
    refine halive ⟨hg.es, hg.timer, hg.timerFlushes, fun p hp => ?_, fun sv hsv => ?_,
      fun hr => hsnaps.trans (hg.unheard (hrow.symm.trans hr))⟩
      (meters_setWorker ⟨fun j sv hj he => ?_, hseq, ?_⟩) (alive_setWorker rfl)
    · rw [hhead]
      exact (hg.stored p (hsnaps ▸ hp)).trans (by omega)
    · rw [hhead]
      exact ⟨(hg.writes sv hsv).1.trans (by omega), (hg.writes sv hsv).2⟩
    · rw [hlive]
      exact hc.1.1 j sv hj he
    · rw [hhead, hlive]
      have hsince : s.since = s.head - s.live := hc.1.2
      show s.since + events.length = _
      omega
  | @resolveEs method args c events seq =>
    obtain ⟨ho, hseq, hsince⟩ := hm
    exact htail rfl ⟨hg.es, hg.timer, hg.timerFlushes, hg.stored, hg.writes, hg.unheard⟩
      ⟨ho, (Nat.cast_add _ _).trans hsince⟩ hseq rfl hinst
  | @ackEs type payload entry events seq =>
    obtain ⟨ho, hseq, hsince⟩ := hm
    exact halive ⟨hg.es, hg.timer, hg.timerFlushes, hg.stored, hg.writes, hg.unheard⟩
      (meters_setWorker ⟨⟨ho, (Nat.cast_add _ _).trans hsince⟩, hseq, rfl⟩)
      (alive_setWorker rfl)
  | @esAcked item entry events =>
    have hst : Steady s (s.afterAck entry) := ⟨rfl, rfl, rfl, rfl, rfl, rfl, id⟩
    exact htail rfl (hst.gauged hg hg.es) (hst.counted hm.1) hm.2.1 hm.2.2 hinst
  | @flushed item k hres =>
    have hst : Steady s.afterFlush (s.afterFlush.setWorker g (.committed item)) :=
      ⟨rfl, rfl, rfl, rfl, rfl, rfl, id⟩
    have hc : s.afterFlush.Close cfg := hm.close hn hg hres
    exact halive (hst.gauged hg.flushed hg.es) (meters_setWorker (hst.close rfl hc))
      (alive_setWorker rfl)

/-- The hook, or what follows it, leaves the counter where it is. -/
theorem beginOnDeactivate (hg : Gauged t) (hc : t.Counted) (idle : Bool) :
    Gauged (t.beginOnDeactivate env idle)
      ∧ ∀ d, (t.beginOnDeactivate env idle).host.deactivating = some d →
        d.pc.Meters cfg (t.beginOnDeactivate env idle) := by
  unfold Sys.beginOnDeactivate
  split
  · next f _ _ =>
    have hst : Steady t ((t.runSegment (f env t.host.state)).setDeactivating
        ⟨.onDeactivate (.after (f env t.host.state)), idle⟩) :=
      ⟨rfl, rfl, rfl, rfl, rfl, rfl, id⟩
    refine ⟨hst.gauged hg hg.es, fun d hd => ?_⟩
    obtain rfl := Option.some.inj hd
    exact hst.counted hc
  · have hst : Steady t (t.dropInstance idle) := ⟨rfl, rfl, rfl, rfl, rfl, rfl, id⟩
    refine ⟨hst.gauged hg hg.es, fun d hd => ?_⟩
    obtain rfl := Option.some.inj hd
    exact hst.counted hc

/-- **A deactivation**, from await to await. -/
theorem of_deactStep (h : Metered cfg s) (hl : Lifecycle s.flow.toLife)
    (hs : s.deactStep env = some s') : Metered cfg s' := by
  have he := Sys.ends_deactStep hs
  obtain ⟨pc, idle, hd, hseg⟩ := Sys.deactSegment hs
  have ha := hl.activated_of_deact hd
  have hm : pc.Meters cfg s := h.ending _ hd
  have hg := h.gauged
  have hend : (∀ g, (s.host.workers g).stage.alive = false) →
      (s'.host.activated = false → s'.Idle) →
      (Gauged s' ∧ ∀ d, s'.host.deactivating = some d → d.pc.Meters cfg s') →
      Metered cfg s' := fun hw hi hg' =>
    ended hg'.1 (he.workers ▸ hw) hg'.2 hi
      (fun pc hpc => hl.beside ha (he.activating ▸ hpc))
  have hlive : (∀ o, pc ≠ .finishing o) → s'.host.activated = false → s'.Idle := by
    intro hne hn
    obtain hsame | ⟨-, -, o, i, hfin⟩ := he.activated
    · exact absurd (hsame.symm.trans hn) (by rw [ha]; simp)
    · exact absurd (congrArg Deactivation.pc (Option.some.inj (hd.symm.trans hfin))) (hne o)
  have hdead : (∀ g, pc ≠ .awaitWorker g) →
      ∀ g, (s.host.workers g).stage.alive = false :=
    fun hne => hl.dead_of_deact hd hne
  -- the log, the writes and the counter stay as they are
  have hcounts : Steady s s' → s'.host.cls.isEs = true →
      (∀ d, s'.host.deactivating = some d → s'.Counted → d.pc.Meters cfg s') → s.Counted →
      Gauged s' ∧ ∀ d, s'.host.deactivating = some d → d.pc.Meters cfg s' :=
    fun hst es hd' hc => ⟨hst.gauged hg es, fun d hd => hd' d hd (hst.counted hc)⟩
  cases hseg with
  | @flush g hdone =>
    have hclose : s.Close cfg := hm (by rw [hdone]; rfl)
    have hseq : (if s.host.cls.isEs = true then s.host.currentSeq else 0) = s.head := by
      rw [if_pos hg.es, hclose.2.1]
    refine hend (hl.dead_of_done hd hdone) (hlive (by simp))
      ⟨hg.issue ⟨_, _, _⟩ hseq.le rfl hg.es rfl rfl rfl rfl, fun d hd' => ?_⟩
    obtain rfl := Option.some.inj hd'
    exact hclose.1.writing ⟨_, _, _⟩ hclose.2.1 rfl hseq rfl rfl rfl rfl rfl
  | @unflushed g hdone =>
    have hclose : s.Close cfg := hm (by rw [hdone]; rfl)
    have hst : Steady s { s with host := { s.host with snapshotTimer := false } } :=
      ⟨hg.timer.symm, rfl, rfl, rfl, rfl, rfl, id⟩
    exact hend (hl.dead_of_done hd hdone) (hlive (by simp))
      (beginOnDeactivate (hst.gauged hg hg.es) (hst.counted hclose.1) idle)
  | @flushed k hres =>
    have hc : s.afterFlush.Counted := Sys.Writing.counted hm hg hres
    exact hend (hdead (by simp)) (hlive (by simp)) (beginOnDeactivate hg.flushed hc idle)
  | @flushFailed k hres => exact absurd hres (hg.saveResult k)
  | onDeactivate | threw | dropped =>
    refine hend (hdead (by simp)) (hlive (by simp))
      (hcounts ⟨rfl, rfl, rfl, rfl, rfl, rfl, id⟩ hg.es (fun d hd' hc => ?_) hm)
    obtain rfl := Option.some.inj hd'
    exact hc
  | @settled o =>
    have hc : s.Counted := by
      cases o with
      | ok u => exact hm
      | error e => exact hm.elim
    have hi : s.Idle := hc.idle
    exact hend (hdead (by simp)) (fun _ => hi)
      (hcounts ⟨rfl, rfl, rfl, rfl, rfl, rfl, id⟩ hg.es
        (fun d hd' => absurd hd' (by simp)) hc)

/-- **A write goes on**, and may land. -/
theorem of_saveStep {k : ℕ} (h : Metered cfg s) (hf : Flushable s)
    (hs : s.saveStep k true = some s') : Metered cfg s' := by
  have hg := h.gauged
  obtain ⟨sv, sv', hk, -, hseq, hhost, hevents, hrow, hstored, hland⟩ :=
    Sys.saveStep_true hs
  have hsv := hg.writes sv (List.mem_of_getElem? hk)
  have hhead : s'.head = s.head :=
    congrArg (fun es : List EventRow => (es.length : ℤ)) hevents
  have hne : s.store.row ≠ none :=
    hf.row (.inr (.inr (.inl (List.ne_nil_of_mem (List.mem_of_getElem? hk)))))
  refine h.still ⟨?_, ?_, ?_, fun p hp => ?_, fun sv₁ hsv₁ => ?_, fun hr => ?_⟩
    (.saveStep hs) (by rw [hhost]) (by rw [hhost]) (by rw [hhost]) (by rw [hhost])
  · rw [hhost]
    exact hg.es
  · rw [hhost]
    exact hg.timer
  · rw [hhost]
    exact hg.timerFlushes
  · rw [hhead]
    obtain hp | he := hstored p hp
    · exact hg.stored p hp
    · exact he ▸ hsv.1
  · rw [hhost] at hsv₁
    rw [hhead]
    obtain hsv₁ | rfl := List.mem_or_eq_of_mem_set hsv₁
    · exact hg.writes sv₁ hsv₁
    · refine ⟨hseq ▸ hsv.1, fun he => ?_⟩
      obtain ⟨hpc, -⟩ | ⟨hpc, -⟩ := hland
      · exact absurd hpc (by simp [he, SavePc.isEnded])
      · exact absurd (he.symm.trans hpc) (by simp)
  · exact absurd (hrow.symm.trans hr) hne

/-- **One step**, in which storage does what it is asked to, and `reduce` does not
throw. -/
theorem step {a : Act Env} (h : Metered cfg s) (hl : Lifecycle s.flow.toLife)
    (hf : Flushable s) (hes : cfg.EventSourced)
    (hn : 1 ≤ cfg.registration.snapshotEveryNEvents) (hok : a.succeeds = true)
    (hr : s.reduces a = true) (hs : s.step cfg a = some s') : Metered cfg s' := by
  have hl' : Lifecycle s'.flow.toLife := hl.of_moves (Sys.flow_step hs)
  by_cases hb : a.beside = true
  · exact h.of_beside hl hl' (Sys.beside_step hl hb hs)
  cases a with
  | activation env ok => exact h.of_actStep hl hl' hf hes hn hs
  | worker g env ok =>
    obtain rfl : ok = true := hok
    exact h.of_workerStep hl hl' hn hr hs
  | deactivation env => exact h.of_deactStep hl hs
  | snapshotFire =>
    rw [Sys.step, Sys.snapshotFire, h.gauged.timer] at hs
    exact absurd hs (by simp)
  | save k ok =>
    obtain rfl : ok = true := hok
    exact h.of_saveStep hf hs
  | subscribe l =>
    rw [Sys.step, Sys.subscribe] at hs
    split at hs
    · exact absurd hs (by simp)
    · obtain rfl := Option.some.inj hs
      have hg := h.gauged
      exact h.still ⟨hg.es, hg.timer, hg.timerFlushes, hg.stored, hg.writes, hg.unheard⟩
        (.of_eq rfl rfl rfl rfl rfl rfl) rfl rfl rfl rfl
  | unsubscribe l =>
    obtain rfl := Option.some.inj hs
    have hg := h.gauged
    exact h.still ⟨hg.es, hg.timer, hg.timerFlushes, hg.stored, hg.writes, hg.unheard⟩
      (.of_eq rfl rfl rfl rfl rfl rfl) rfl rfl rfl rfl
  | notifyTombstone =>
    obtain rfl := Option.some.inj hs
    have hg := h.gauged
    exact h.still ⟨hg.es, hg.timer, hg.timerFlushes, hg.stored, hg.writes, hg.unheard⟩
      (.of_eq rfl rfl rfl rfl rfl rfl) rfl rfl rfl rfl
  | _ => exact absurd rfl hb

end Metered

/-! ## Every history of an actor

Over crashes and upgrades: a new host starts from the live snapshot with a
counter of zero, and counts what it replays. -/

/-- `n` segments of the worker. -/
def Tally.turning (n : ℕ) : List (Upgrade ℕ Unit) :=
  List.replicate n (.act (.worker 1 () true))

/-- The worker is between the append of its events and the end of the commit. -/
def WorkerPc.committing : WorkerPc S → Bool
  | appended _ _ _ => true
  | acking _ _ (.es _) => true
  | flushing _ _ => true
  | _ => false

theorem WorkerPc.Meters.close {cfg : HostConfig S Env Op} {s : Sys S Env Op}
    {pc : WorkerPc S} (h : pc.Meters cfg s) (hpc : pc.committing = false) :
    s.Close cfg := by
  cases pc with
  | appending item events writes => exact h.1
  | appended item events seq => exact absurd hpc (by simp [committing])
  | acking item entry after =>
    cases after with
    | swm => exact h.elim
    | esEmpty => exact h
    | es events => exact absurd hpc (by simp [committing])
  | flushing item k => exact absurd hpc (by simp [committing])
  | _ => exact h

namespace Upgrades

variable {u u' : Upgrades S Env Op}

/-- **Nothing goes wrong**: storage operations succeed, `reduce` does not throw,
and every version that is registered is event-sourced. -/
def goesWell (u : Upgrades S Env Op) : Upgrade S Env → Bool
  | .act a => a.succeeds && u.sys.reduces a
  | .restart registration =>
    registration.ctor.isEs && decide (1 ≤ registration.snapshotEveryNEvents)

/-- What holds of an event-sourced actor in every process. -/
structure Replayable (u : Upgrades S Env Op) : Prop where
  life : Lifecycle u.sys.flow.toLife
  flushable : Flushable u.sys
  metered : Metered u.cfg u.sys
  es : u.cfg.EventSourced
  pos : 1 ≤ u.cfg.registration.snapshotEveryNEvents

namespace Replayable

theorem init {cfg : HostConfig S Env Op} (es : cfg.EventSourced)
    (pos : 1 ≤ cfg.registration.snapshotEveryNEvents) : (init cfg).Replayable where
  life := .init cfg .empty
  flushable := .init cfg .empty
  metered := .init es.registered (fun _ hp => absurd hp List.not_mem_nil) (fun _ => rfl)
  es := es
  pos := pos

/-- **One step**, of the host or of who runs it. -/
theorem step {x : Upgrade S Env} (h : u.Replayable) (hw : u.goesWell x = true)
    (hs : u.step x = some u') : u'.Replayable := by
  have hl := lifecycle_step h.life hs
  obtain ⟨a, s, rfl, hs', rfl⟩ | ⟨registration, rfl, rfl⟩ := step_cases hs
  · obtain ⟨hok, hr⟩ := Bool.and_eq_true_iff.mp hw
    exact ⟨hl, h.flushable.step h.life hs',
      h.metered.step h.life h.flushable h.es h.pos hok hr hs', h.es, h.pos⟩
  · obtain ⟨hes, hn⟩ := Bool.and_eq_true_iff.mp hw
    exact
      { life := hl
        flushable := .init _ _
        metered := .init hes h.metered.gauged.stored h.metered.gauged.unheard
        es := ⟨hes, h.es.loaded⟩
        pos := of_decide_eq_true hn }

/-- Outside a commit, the counter is the distance. -/
theorem bounded (h : u.Replayable) {g : ℕ}
    (hg : (u.sys.host.workers g).stage.alive = true)
    (hc : (u.sys.host.workers g).committing = false) :
    ReplayBounded u.cfg.registration.snapshotEveryNEvents u.sys := by
  have hclose := (h.metered.working g hg).close hc
  have hlive : u.sys.store.liveSeq = u.sys.live :=
    ActorStore.liveSeq_eq h.metered.gauged.unheard
  have hcounted : (u.sys.host.eventsSinceSnapshot : ℤ)
      = u.sys.store.headEventSeq - u.sys.store.liveSeq := by
    rw [hlive]
    exact hclose.1.2
  exact ⟨hcounted, hcounted ▸ hclose.2.2⟩

end Replayable

open Tally

end Upgrades
