import Actjs.Flushing

/-!
# Upgrades

The process that hosts an actor is replaced now and then. It crashes, or is
shut down, at any point, and the next one may have another version of the class
registered – a newer one, or an older one after a rollback, sticky or floating
as its registration says.

An event is stamped with the version of the actor's row, and the replay compares
the stamp with the version that is registered. Neither need be the version that
runs: the row stays as it is when a floating actor migrates its snapshot, and a
sticky actor runs the version of its snapshot. `Upgrades` records beside the
storage which code did what, and the stamps are compared with that.
-/

variable {S Env Op : Type}

/-! ## Replays -/

/-- The versions `migrateEvent` is given for one record, call by call. -/
def migrations (cls : ActorClass S Env) (version : Version) (r : EventRow) :
    List Version :=
  match cls.migrateEvent with
  | none => []
  | some _ => if r.classVersion = version then [] else [r.classVersion]

/-- A payload, through one `migrateEvent` call for each of the versions. -/
def migrateThrough (cls : ActorClass S Env) : List Version → Json → Except Json Json
  | [], e => .ok e
  | v :: vs, e =>
    match cls.migrateEvent with
    | none => .ok e
    | some f => (f e v).bind (migrateThrough cls vs)

/-- A replay folds the payload of a record through these calls. -/
theorem Sys.replayedEvent_eq (cls : ActorClass S Env) (version : Version)
    (r : EventRow) : Sys.replayedEvent cls version r
      = migrateThrough cls (migrations cls version r) r.payload := by
  unfold Sys.replayedEvent migrations
  cases hm : cls.migrateEvent with
  | none => rfl
  | some f =>
    dsimp only
    split
    · rfl
    · rw [migrateThrough, hm]
      dsimp only
      cases f r.payload r.classVersion with
      | error e => rfl
      | ok e => rfl

/-- The records the loop of `replayEvents` gets to: all it reads, or those up to
the first that makes it throw. -/
def reached (cls : ActorClass S Env) (version : Version) :
    S → List (ℤ × EventRow) → List (ℤ × EventRow)
  | _, [] => []
  | x, p :: ps =>
    p :: match (Sys.replayedEvent cls version p.snd).bind (cls.reduce x) with
      | .error _ => []
      | .ok x' => reached cls version x' ps

/-- A replay that throws nothing gets to all of them. -/
theorem reached_eq {cls : ActorClass S Env} {version : Version}
    {ps : List (ℤ × EventRow)} {acc : Sys.Replayed S}
    (h : (Sys.replayLoop cls version acc ps).thrown = none)
    (hacc : acc.thrown = none) :
    reached cls version acc.state ps = ps := by
  induction ps generalizing acc with
  | nil => rfl
  | cons p ps ih =>
    obtain ⟨seq, r⟩ := p
    rw [Sys.replayLoop] at h
    rw [reached]
    dsimp only
    cases hr : (Sys.replayedEvent cls version r).bind (cls.reduce acc.state) with
    | error x =>
      rw [hr] at h
      exact absurd h (by simp)
    | ok x =>
      rw [hr] at h
      exact congrArg _ (ih h rfl)

theorem reached_subset (cls : ActorClass S Env) (version : Version) (x : S)
    (ps : List (ℤ × EventRow)) : reached cls version x ps ⊆ ps := by
  induction ps generalizing x with
  | nil => exact List.Subset.refl _
  | cons p ps ih =>
    rw [reached]
    refine List.cons_subset_cons _ ?_
    split
    · exact List.nil_subset _
    · exact ih _

/-! ## The machine

One actor over several processes. Beside the storage it is recorded which code
has emitted an event and which has folded it, which nothing in the source
does. -/

/-- An event that a replay folds. -/
structure Fold where
  /-- The version of the code that folds it. -/
  running : Version
  /-- The version of the code that emitted it. -/
  emitter : Version
  /-- The versions that `migrateEvent` is given before. -/
  migrations : List Version
deriving DecidableEq

/-- **One actor across upgrades**: its host in the current process, and what is
recorded of the code that ran. -/
structure Upgrades (S Env Op : Type) where
  /-- What the current process constructs the host with. -/
  cfg : HostConfig S Env Op
  sys : Sys S Env Op
  /-- The class was registered as floating at some time. -/
  floated : Bool
  /-- The version of the code the actor was created by. -/
  created : Option Version
  /-- By event of the log, the version of the code that emitted it. -/
  emitters : List Version
  /-- The versions of the code that wrote what the instance was made of: the
  snapshot, and the events it has read. -/
  sources : List Version
  /-- The events folded in replays so far. -/
  folds : List Fold

/-- What can happen: a step of the host, or another process. -/
inductive Upgrade (S Env : Type) where
  | act (a : Act Env)
  | restart (registration : Registration S Env)

namespace Upgrades

/-- An actor that storage has never heard of. -/
def init (cfg : HostConfig S Env Op) : Upgrades S Env Op where
  cfg := cfg
  sys := .init cfg .empty
  floated := cfg.registration.floating
  created := none
  emitters := []
  sources := []
  folds := []

/-- The version that is registered. -/
def registered (u : Upgrades S Env Op) : Version := u.cfg.registration.version

/-- The version of the code that runs. -/
def running (u : Upgrades S Env Op) : Version := u.sys.host.runningVersion

/-- The version of the code that emitted the event of this seq. -/
def emitter (u : Upgrades S Env Op) (seq : ℤ) : Version :=
  u.emitters.getD (seq - 1).toNat ""

/-- The records that a step reads to replay them. -/
def reading (u : Upgrades S Env Op) (a : Act Env) : List (ℤ × EventRow) :=
  match u.sys.host.activating, a with
  | some .readEvents, .activation _ true =>
    u.sys.store.readEvents (u.sys.host.currentSeq + 1)
  | _, _ => []

/-- The records that it folds. -/
def folding (u : Upgrades S Env Op) (a : Act Env) : List (ℤ × EventRow) :=
  reached u.sys.host.cls u.registered u.sys.host.state (u.reading a)

/-- The instance is made of the snapshot, and of the events that are read. -/
def sourcesAfter (u : Upgrades S Env Op) (a : Act Env) : List Version :=
  match u.sys.host.activating, a with
  | some (.resolveCtor _), .activation _ _ => []
  | some (.loadFence snap _), .activation _ true =>
    (snap.map SnapshotRead.version).toList
  | _, _ => u.sources ++ (u.reading a).map (fun p => u.emitter p.fst)

/-- What is recorded of a step of the host. -/
def record (u : Upgrades S Env Op) (a : Act Env) (s : Sys S Env Op) :
    Upgrades S Env Op :=
  { u with
    sys := s
    created :=
      match u.sys.store.row with
      | some _ => u.created
      | none => s.store.row.map (fun _ => u.running)
    emitters := u.emitters ++ List.replicate
      (s.store.events.length - u.sys.store.events.length) u.running
    sources := u.sourcesAfter a
    folds := (u.folding a).map (fun p =>
      ⟨u.running, u.emitter p.fst, migrations u.sys.host.cls u.registered p.snd⟩)
        ++ u.folds }

@[simp] theorem created_record_eq (u : Upgrades S Env Op) (a : Act Env)
    (s : Sys S Env Op) : (u.record a s).created
      = u.sys.store.row.elim (s.store.row.map (fun _ => u.running))
          (fun _ => u.created) := by
  unfold record
  dsimp only
  cases u.sys.store.row <;> rfl

/-- Another process, with this registration. -/
def restart (u : Upgrades S Env Op) (registration : Registration S Env) :
    Upgrades S Env Op :=
  let cfg := { u.cfg with registration := registration }
  { u with
    cfg := cfg
    sys := .init cfg u.sys.store
    floated := u.floated || registration.floating
    sources := [] }

/-- **One step of an actor across upgrades.** -/
def step (u : Upgrades S Env Op) : Upgrade S Env → Option (Upgrades S Env Op)
  | .act a => (u.sys.step u.cfg a).map (u.record a)
  | .restart registration => some (u.restart registration)

variable {u u' : Upgrades S Env Op}

theorem step_cases {x : Upgrade S Env} (h : u.step x = some u') :
    (∃ a s, x = .act a ∧ u.sys.step u.cfg a = some s ∧ u' = u.record a s)
      ∨ ∃ registration, x = .restart registration ∧ u' = u.restart registration := by
  cases x with
  | act a =>
    obtain ⟨s, hs, rfl⟩ := Option.map_eq_some_iff.mp h
    exact .inl ⟨a, s, rfl, hs, rfl⟩
  | restart registration => exact .inr ⟨registration, rfl, (Option.some.inj h).symm⟩

theorem lifecycle_step {x : Upgrade S Env} (hl : Lifecycle u.sys.flow.toLife)
    (h : u.step x = some u') : Lifecycle u'.sys.flow.toLife := by
  obtain ⟨a, s, rfl, hs, rfl⟩ | ⟨registration, rfl, rfl⟩ := step_cases h
  · exact hl.of_moves (Sys.flow_step hs)
  · exact .init _ _

end Upgrades

/-! ## Stamps

An event is stamped when it is appended, and compared when it is replayed;
what happened to the row in between is what the condition is about. -/

/-- The worker is in its `appendEvents`. -/
def WorkerPc.isAppending : WorkerPc S → Bool
  | appending _ _ _ => true
  | _ => false

namespace Sys

variable {cfg : HostConfig S Env Op} {s s' : Sys S Env Op} {env : Env}

/-- A turn grows the log by its append only. -/
theorem events_workerStep {g : ℕ} {ok : Bool}
    (hs : s.workerStep cfg g env ok = some s') :
    s'.store.events = s.store.events
      ∨ (s.host.workers g).isAppending = true ∧ ok = true
        ∧ ∃ writes seq, s.store.appendEvents writes = some (s'.store, seq) := by
  obtain ⟨pc, hpc, hseg⟩ := workerSegment hs
  rw [hpc]
  cases hseg with
  | appended hok ha => exact .inr ⟨rfl, hok, _, _, ha⟩
  | resolveEs | esAcked =>
    rw [store_commitEsTail]
    exact .inl rfl
  | ignored => cases ok <;> exact .inl rfl
  | _ => exact .inl rfl

/-- **Only an append of a turn grows the log.** -/
theorem events_step {a : Act Env} (hl : Lifecycle s.flow.toLife)
    (hs : s.step cfg a = some s') :
    s'.store.events = s.store.events
      ∨ ∃ g env writes seq, a = .worker g env true
        ∧ (s.host.workers g).isAppending = true
        ∧ s.store.appendEvents writes = some (s'.store, seq) := by
  by_cases hb : a.beside = true
  · exact .inl (beside_step hl hb hs).events
  cases a with
  | activation env ok => exact .inl (opens_actStep hs).events
  | worker g env ok =>
    obtain he | ⟨hg, rfl, writes, seq, ha⟩ := events_workerStep hs
    · exact .inl he
    · exact .inr ⟨g, env, writes, seq, rfl, hg, ha⟩
  | deactivation env => exact .inl (by rw [store_deactStep hs])
  | snapshotFire =>
    rw [step, snapshotFire] at hs
    refine .inl ?_
    split at hs
    · dsimp only at hs
      split at hs <;> obtain rfl := Option.some.inj hs <;> rfl
    · exact absurd hs (by simp)
  | save k ok =>
    obtain he | ⟨_, _, _, -, -, he⟩ := store_saveStep hs
    · exact .inl (by rw [he])
    · exact .inl (by rw [he]; rfl)
  | subscribe l =>
    rw [step, subscribe] at hs
    split at hs
    · exact absurd hs (by simp)
    · obtain rfl := Option.some.inj hs
      exact .inl rfl
  | unsubscribe l =>
    obtain rfl := Option.some.inj hs
    exact .inl rfl
  | notifyTombstone =>
    obtain rfl := Option.some.inj hs
    exact .inl rfl
  | _ => exact absurd rfl hb

end Sys

/-- A record read has the seq of its place in the log. -/
theorem getElem?_of_mem_numberedFrom {n : ℤ} {es : List EventRow} {p : ℤ × EventRow}
    (h : p ∈ numberedFrom n es) : es[(p.fst - n - 1).toNat]? = some p.snd := by
  induction es generalizing n with
  | nil => exact absurd h (by simp [numberedFrom])
  | cons e es ih =>
    rw [numberedFrom, List.mem_cons] at h
    obtain rfl | h := h
    · simp
    · have hseq := (numberedFrom_seq h).1
      obtain ⟨k, hk⟩ : ∃ k : ℕ, p.fst - n - 1 = (k + 1 : ℕ) :=
        ⟨(p.fst - n - 2).toNat, by omega⟩
      have hk' : p.fst - (n + 1) - 1 = k := by omega
      rw [hk, Int.toNat_natCast, List.getElem?_cons_succ, ← ih h, hk',
        Int.toNat_natCast]

namespace Upgrades

variable {u u' : Upgrades S Env Op}

theorem mem_readEvents_of_mem_reading {a : Act Env} {p : ℤ × EventRow}
    (h : p ∈ u.reading a) :
    p ∈ u.sys.store.readEvents (u.sys.host.currentSeq + 1) := by
  unfold reading at h
  split at h
  · exact h
  · exact absurd h List.not_mem_nil

theorem mem_reading_of_mem_folding {a : Act Env} {p : ℤ × EventRow}
    (h : p ∈ u.folding a) : p ∈ u.reading a := reached_subset _ _ _ _ h

/-- What a step reads is in the log, at its seq. -/
theorem getElem?_of_mem_reading {a : Act Env} {p : ℤ × EventRow}
    (h : p ∈ u.reading a) :
    u.sys.store.events[(p.fst - 1).toNat]? = some p.snd := by
  have h := mem_readEvents_of_mem_reading h
  rw [ActorStore.readEvents] at h
  split at h
  · exact absurd h List.not_mem_nil
  · have h := getElem?_of_mem_numberedFrom (List.mem_filter.mp h).1
    rwa [sub_zero] at h

/-- `migrateEvent` is given what it should be for a record: it is not called
for an event of the running version, and there is one to call for any other. -/
def translates (u : Upgrades S Env Op) (p : ℤ × EventRow) : Bool :=
  match u.sys.host.cls.migrateEvent with
  | none => u.emitter p.fst == u.running
  | some _ => (u.emitter p.fst == u.registered) == (u.emitter p.fst == u.running)

/-- **The condition on a step**: an event is appended only while the row has the
version that runs. And an event is folded only by a version that runs as the
registered one, if it is of either, and by a class with a `migrateEvent`, if it
is of another version. -/
def stampsTruly (u : Upgrades S Env Op) : Upgrade S Env → Bool
  | .act (.worker g _ true) =>
    !(u.sys.host.workers g).isAppending
      || u.sys.store.row.all (fun row => row.version == u.running)
  | .act a => (u.folding a).all u.translates
  | .restart _ => true

/-- **Events are stamped and migrated by the code that emitted them**: a stamp is
the version of that code, and an event is folded raw by its own version, and
after one `migrateEvent` call, which is given the version, by any other. -/
structure Stamped (u : Upgrades S Env Op) : Prop where
  stamps : u.sys.store.events.map EventRow.classVersion = u.emitters
  folds : ∀ f ∈ u.folds,
    f.migrations = if f.emitter = f.running then [] else [f.emitter]

namespace Stamped

/-- The stamp of a record that is read is its emitter. -/
theorem emitter_eq (h : u.Stamped) {a : Act Env} {p : ℤ × EventRow}
    (hp : p ∈ u.reading a) : u.emitter p.fst = p.snd.classVersion := by
  unfold emitter
  rw [← h.stamps, List.getD_eq_getElem?_getD, List.getElem?_map,
    getElem?_of_mem_reading hp]
  rfl

/-- The calls for a record that is folded under the condition. -/
theorem migrations_eq (h : u.Stamped) {a : Act Env} {p : ℤ × EventRow}
    (hp : p ∈ u.reading a) (ht : u.translates p = true) :
    migrations u.sys.host.cls u.registered p.snd
      = if u.emitter p.fst = u.running then [] else [u.emitter p.fst] := by
  unfold migrations
  unfold translates at ht
  rw [h.emitter_eq hp] at ht ⊢
  cases hm : u.sys.host.cls.migrateEvent with
  | none =>
    rw [hm] at ht
    have he : p.snd.classVersion = u.running := beq_iff_eq.mp ht
    rw [if_pos he]
  | some f =>
    rw [hm] at ht
    have hiff : p.snd.classVersion = u.registered ↔ p.snd.classVersion = u.running := by
      rw [← beq_iff_eq, beq_iff_eq.mp ht, beq_iff_eq]
    dsimp only
    by_cases hr : p.snd.classVersion = u.running
    · rw [if_pos hr, if_pos (hiff.mpr hr)]
    · rw [if_neg hr, if_neg (fun he => hr (hiff.mp he))]

/-- An append whose row has the version that runs stamps with it. -/
theorem append (h : u.Stamped) {st : ActorStore S} {writes : List EventWrite}
    {seq : ℤ} (ha : u.sys.store.appendEvents writes = some (st, seq))
    (hrow : u.sys.store.row.all (fun row => row.version == u.running) = true) :
    st.events.map EventRow.classVersion = u.emitters ++ List.replicate
      (st.events.length - u.sys.store.events.length) u.running := by
  obtain ⟨-, -, -, new, hnew, -, hstamp⟩ := ActorStore.appendEvents_spec ha
  rw [hnew, List.map_append, h.stamps, List.length_append, Nat.add_sub_cancel_left]
  refine congrArg _ (List.eq_replicate_iff.mpr ⟨List.length_map _, fun v hv => ?_⟩)
  obtain ⟨e, he, rfl⟩ := List.mem_map.mp hv
  obtain ⟨row, hr, hv⟩ := hstamp e he
  rw [hr] at hrow
  rw [hv]
  simpa using hrow

/-- **One step.** -/
theorem step {x : Upgrade S Env} (h : u.Stamped) (hl : Lifecycle u.sys.flow.toLife)
    (hG : u.stampsTruly x = true) (hs : u.step x = some u') : u'.Stamped := by
  obtain ⟨a, s, rfl, hs', rfl⟩ | ⟨registration, rfl, rfl⟩ := step_cases hs
  · refine ⟨?_, fun f hf => ?_⟩
    · obtain he | ⟨g, env, writes, seq, rfl, hg, ha⟩ := Sys.events_step hl hs'
      · show s.store.events.map _ = u.emitters ++ _
        rw [he, h.stamps, Nat.sub_self, List.replicate_zero, List.append_nil]
      · have hrow : (!(u.sys.host.workers g).isAppending
            || u.sys.store.row.all (fun row => row.version == u.running)) = true := hG
        rw [hg] at hrow
        exact h.append ha hrow
    · obtain hf | hf := List.mem_append.mp hf
      · obtain ⟨p, hp, rfl⟩ := List.mem_map.mp hf
        have hfold : (u.folding a).all u.translates = true := by
          unfold stampsTruly at hG
          split at hG
          · next g env he =>
            obtain rfl := Upgrade.act.inj he
            unfold folding reading at hp
            split at hp
            · next h => cases h
            · exact absurd hp (by simp [reached])
          · next he => exact Upgrade.act.inj he ▸ hG
          · next he => cases he
        exact h.migrations_eq (mem_reading_of_mem_folding hp)
          (List.all_eq_true.mp hfold p hp)
      · exact h.folds f hf
  · exact ⟨h.stamps, h.folds⟩

end Stamped

/-- **Events are stamped and migrated by the code that emitted them**, in every
history of activations in which none is appended under a row of another version,
or folded by a version that takes it for one of its own, or for foreign. -/
theorem event_versions (cfg : HostConfig S Env Op) {xs : List (Upgrade S Env)}
    (hG : TransitionSystem.Along step (fun u x => u.stampsTruly x = true)
      (init cfg) xs)
    (hrun : TransitionSystem.run step (init cfg) xs = some u) : u.Stamped :=
  (TransitionSystem.run_invariant step
    (P := fun u => Lifecycle u.sys.flow.toLife ∧ u.Stamped)
    (fun _ _ _ h hG hs => ⟨lifecycle_step h.1 hs, h.2.step h.1 hG hs⟩)
    ⟨.init cfg .empty, rfl, fun _ hf => absurd hf List.not_mem_nil⟩ hG hrun).2

end Upgrades

/-! ## A tally -/

namespace Tally

/-- An event-sourced count of the events there were. -/
def cls : ActorClass ℕ Unit where
  isEs := true
  blank := 0
  initialState := 0
  reduce := fun n _ => .ok (n + 1)
  migrateEvent := some (fun e _ => .ok e)
  handlers := fun name =>
    if name = "add" then
      some (fun _ _ _ => .ret .keep (.arr [.obj [("type", .str "Added")]]))
    else none
  onInit := none
  onActivate := none
  onDeactivate := none
  migrate := none
  snapshot := none

/-- The class, registered at a version. -/
def registration (version : Version) (floating : Bool)
    (snapshotEveryNEvents : ℕ) : Registration ℕ Unit where
  name := "Tally"
  version := version
  ctor := cls
  mailboxCapacity_pos := defaultMailboxCapacity_pos
  snapshotEveryNEvents := snapshotEveryNEvents
  floating := floating

/-- A host of the first version. -/
def cfg (floating : Bool) (snapshotEveryNEvents : ℕ) : HostConfig ℕ Unit Unit where
  id := "tally-1"
  registration := registration "1.0.0" floating snapshotEveryNEvents
  loader := some (fun _ _ => .ok cls)
  gt := fun v w => decide (v = "2.0.0" ∧ w = "1.0.0")
  compare := fun _ _ => []

/-- An activation in `n` segments, in all of which everything goes well. -/
def activating (n : ℕ) : List (Upgrade ℕ Unit) :=
  .act .activate :: List.replicate n (.act (.activation () true))

/-- A call of `add`, by number, up to its fold. -/
def adding (c : ℕ) : List (Upgrade ℕ Unit) :=
  .act (.callStart c "add" .null) :: List.replicate 4 (.act (.worker 1 () true))

end Tally

namespace Upgrades

open Tally

/-- The theorem applies to an upgrade of an actor that has no snapshot: the event
of the first version goes through `migrateEvent`, and the next is of the
second. -/
theorem event_versions_replayed :
    ∃ u, TransitionSystem.run step (init (Tally.cfg true 100))
        (activating 8 ++ adding 0 ++ [.restart (registration "2.0.0" true 100)]
          ++ activating 9 ++ adding 0) = some u
      ∧ u.emitters = ["1.0.0", "2.0.0"]
      ∧ u.folds = [⟨"2.0.0", "1.0.0", ["1.0.0"]⟩] ∧ u.Stamped := by
  have hrun : (TransitionSystem.run step (init (Tally.cfg true 100))
      (activating 8 ++ adding 0 ++ [.restart (registration "2.0.0" true 100)]
        ++ activating 9 ++ adding 0)).any
      (fun u => u.emitters == ["1.0.0", "2.0.0"]
        && u.folds == [⟨"2.0.0", "1.0.0", ["1.0.0"]⟩]) = true := by decide
  obtain ⟨u, hu, hf⟩ := (Option.any_eq_true _ _).mp hrun
  obtain ⟨he, hf⟩ := Bool.and_eq_true_iff.mp hf
  exact ⟨u, hu, beq_iff_eq.mp he, beq_iff_eq.mp hf,
    event_versions (Tally.cfg true 100) (by decide) hu⟩

/-- **An event of the second version is stamped with the first**, if the actor
floats and had a snapshot when it was upgraded. -/
theorem not_event_versions :
    ¬∀ (xs : List (Upgrade ℕ Unit)) (u : Upgrades ℕ Unit Unit),
      TransitionSystem.run step (init (Tally.cfg true 1)) xs = some u →
      u.Stamped := by
  intro h
  have hrun : (TransitionSystem.run step (init (Tally.cfg true 1))
      (activating 8 ++ adding 0
        ++ [.act (.save 0 true), .act (.save 0 true),
          .restart (registration "2.0.0" true 1)]
        ++ activating 8 ++ adding 0)).any
      (fun u => u.emitters == ["1.0.0", "2.0.0"]
        && u.sys.store.events.map EventRow.classVersion == ["1.0.0", "1.0.0"])
      = true := by decide
  obtain ⟨u, hu, hf⟩ := (Option.any_eq_true _ _).mp hrun
  obtain ⟨he, hs⟩ := Bool.and_eq_true_iff.mp hf
  have heq := (h _ u hu).stamps
  rw [beq_iff_eq.mp he, beq_iff_eq.mp hs] at heq
  exact absurd heq (by decide)

end Upgrades
