import Actjs.Opening
import Actjs.Beside

/-!
# What the steps of a host write

A host writes to storage in six ways. One is the driver landing a snapshot
write; `Writes` lists the others, and every other step is one of them or
writes nothing. So the log of an actor only grows, its row stays, and what is
live stays so unless a snapshot lands. The row is the work of an activation
alone; `Deposits` is what is left for the other steps.
-/

open Function (update)

variable {S Env Op : Type}

/-- **What a step does to storage**, if it lands no snapshot. It is about one
method of the driver at a time, as no step of a host has more than one take
effect; and what is not listed cannot happen: nothing is taken back, and no
event, entry or snapshot is removed. -/
inductive Writes (st : ActorStore S) : ActorStore S → Prop
  | nothing : Writes st st
  | row (name : ClassName) (version : Version) :
    Writes st (st.registerActor name version)
  | events {writes : List EventWrite} {st' : ActorStore S} {seq : ℤ} :
    st.appendEvents writes = some (st', seq) → Writes st st'
  | inbox (e : InboxEntry) : Writes st (st.appendInbox e)
  | ack (id : ℕ) : Writes st (st.ackInbox id)

/-- What a step does to storage if it does not register the actor either, and
so leaves the row as it is. -/
inductive Deposits (st : ActorStore S) : ActorStore S → Prop
  | nothing : Deposits st st
  | events {writes : List EventWrite} {st' : ActorStore S} {seq : ℤ} :
    st.appendEvents writes = some (st', seq) → Deposits st st'
  | inbox (e : InboxEntry) : Deposits st (st.appendInbox e)
  | ack (id : ℕ) : Deposits st (st.ackInbox id)

namespace Deposits

variable {st st' : ActorStore S}

theorem writes (h : Deposits st st') : Writes st st' := by
  cases h with
  | nothing => exact .nothing
  | events ha => exact .events ha
  | inbox e => exact .inbox e
  | ack id => exact .ack id

theorem row (h : Deposits st st') : st'.row = st.row := by
  cases h with
  | events ha => exact (ActorStore.appendEvents_spec ha).2.2.1
  | _ => rfl

end Deposits

namespace Writes

variable {st st' : ActorStore S}

theorem snapshots (h : Writes st st') : st'.snapshots = st.snapshots := by
  cases h with
  | events ha => exact (ActorStore.appendEvents_spec ha).1
  | _ => rfl

/-- A row is never removed. -/
theorem row_ne (h : Writes st st') (hr : st.row ≠ none) : st'.row ≠ none := by
  cases h with
  | row name version => exact Option.some_ne_none _
  | events ha => rw [(ActorStore.appendEvents_spec ha).2.2.1]; exact hr
  | _ => exact hr

/-- What is live stays live, if under another class. -/
theorem live (h : Writes st st') {snap : SnapshotRead S}
    (hs : st.loadSnapshot = some snap) :
    ∃ snap', st'.loadSnapshot = some snap' ∧ snap'.seq = snap.seq
      ∧ snap'.state = snap.state := by
  have hrow := h.row_ne (ActorStore.loadSnapshot_spec hs).2
  rw [ActorStore.loadSnapshot] at hs ⊢
  rw [h.snapshots]
  split at hs
  · next r q row _ hbest =>
    obtain ⟨r', hr'⟩ := Option.ne_none_iff_exists'.mp hrow
    obtain rfl := Option.some.inj hs
    rw [hr', hbest]
    exact ⟨_, rfl, rfl, rfl⟩
  · exact absurd hs (by simp)

end Writes

namespace Sys

variable {cfg : HostConfig S Env Op} {s s' : Sys S Env Op} {env : Env}

/-! ## Activation -/

@[simp] theorem store_beginOnActivate (s : Sys S Env Op) (env : Env) :
    (s.beginOnActivate env).store = s.store := by
  unfold beginOnActivate
  split <;> rfl

@[simp] theorem store_beginReplay (s : Sys S Env Op) (env : Env) :
    (s.beginReplay env).store = s.store := by
  unfold beginReplay
  split
  · rfl
  · exact store_beginOnActivate s env

@[simp] theorem store_beginOnInit (s : Sys S Env Op) (env : Env) :
    (s.beginOnInit env).store = s.store := by
  unfold beginOnInit
  split
  · exact store_beginReplay s.boundary env
  · rfl

@[simp] theorem store_beginMigrate (s : Sys S Env Op) (prev : SnapshotRead S) :
    (s.beginMigrate prev).store = s.store := by
  unfold beginMigrate
  split <;> rfl

@[simp] theorem store_migrated (s : Sys S Env Op) (x : S) :
    (s.migrated x).store = s.store := by
  unfold migrated
  dsimp only
  split <;> rfl

@[simp] theorem store_replay (cfg : HostConfig S Env Op) (s : Sys S Env Op)
    (env : Env) : (s.replay cfg env).store = s.store := by
  unfold replay
  dsimp only
  split
  · rfl
  · split
    · rfl
    · rw [store_beginOnActivate]
      rfl

@[simp] theorem store_enqueueAll (s : Sys S Env Op) (rs : List InboxRecord) :
    (s.enqueueAll rs).2.store = s.store := by
  induction rs generalizing s with
  | nil => rfl
  | cons r rs ih =>
    rw [enqueueAll]
    split
    · rfl
    · rw [ih]
      rfl

/-- An activation writes the row of an actor that has no snapshot, and nothing
else. -/
theorem store_actStep {ok : Bool} (hs : s.actStep cfg env ok = some s') :
    s'.store = s.store ∨ s'.store
      = s.store.registerActor cfg.registration.name s.host.runningVersion := by
  obtain ⟨pc, -, hseg⟩ := actSegment hs
  cases hseg with
  | registerEs | register => exact .inr (store_beginOnInit _ _)
  | migrates => exact .inl (store_beginMigrate _ _)
  | loaded | initialized | noMigrate | audited => exact .inl (store_beginReplay _ _)
  | migrated => exact .inl (store_migrated _ _)
  | upToDate | replayFlushed => exact .inl (store_beginOnActivate _ _)
  | replayed => exact .inl (store_replay _ _ _)
  | replayInbox => exact .inl (store_enqueueAll _ _)
  | _ => exact .inl rfl

theorem writes_actStep {ok : Bool} (hs : s.actStep cfg env ok = some s') :
    Writes s.store s'.store := by
  obtain he | he := store_actStep hs
  · exact he ▸ .nothing
  · exact he ▸ .row _ _

/-! ## Turns -/

@[simp] theorem store_commitEsTail (cfg : HostConfig S Env Op)
    (s : Sys S Env Op) (g : ℕ) (item : Item) (events : List Json) :
    (s.commitEsTail cfg g item events).store = s.store := by
  unfold commitEsTail
  dsimp only
  split <;> rfl

/-- A turn appends events, and acks an inbox entry. -/
theorem deposits_workerStep {g : ℕ} {ok : Bool}
    (hs : s.workerStep cfg g env ok = some s') : Deposits s.store s'.store := by
  obtain ⟨pc, -, hseg⟩ := workerSegment hs
  cases hseg with
  | appended hok ha => exact .events ha
  | swmAcked | emptyAcked => exact .ack _
  | esAcked =>
    rw [store_commitEsTail]
    exact .ack _
  | resolveEs =>
    rw [store_commitEsTail]
    exact .nothing
  | ignored =>
    cases ok
    · exact .nothing
    · exact .ack _
  | _ => exact .nothing

theorem writes_workerStep {g : ℕ} {ok : Bool}
    (hs : s.workerStep cfg g env ok = some s') : Writes s.store s'.store :=
  (deposits_workerStep hs).writes

/-! ## Deactivation, and requests -/

@[simp] theorem store_beginOnDeactivate (s : Sys S Env Op) (env : Env)
    (idle : Bool) : (s.beginOnDeactivate env idle).store = s.store := by
  unfold beginOnDeactivate
  split <;> rfl

@[simp] theorem store_beginFinalFlush (s : Sys S Env Op) (env : Env)
    (idle : Bool) : (s.beginFinalFlush env idle).store = s.store := by
  unfold beginFinalFlush
  dsimp only
  split
  · rfl
  · exact store_beginOnDeactivate _ env idle

@[simp] theorem store_deactivate (s : Sys S Env Op) (env : Env) (idle : Bool) :
    (s.deactivate env idle).store = s.store := by
  unfold deactivate
  split
  · rfl
  split
  · rfl
  dsimp only
  split
  · rfl
  · rw [store_beginFinalFlush]
    rfl

theorem store_deactStep (hs : s.deactStep env = some s') :
    s'.store = s.store := by
  obtain ⟨pc, idle, -, hseg⟩ := deactSegment hs
  cases hseg with
  | unflushed | flushed => exact store_beginOnDeactivate _ env idle
  | _ => rfl

@[simp] theorem store_activate (cfg : HostConfig S Env Op) (s : Sys S Env Op) :
    (s.activate cfg).store = s.store := by
  unfold activate beginActivation
  dsimp only
  split
  · rfl
  split
  · rfl
  split <;> rfl

@[simp] theorem store_callEnqueue (s : Sys S Env Op) (c : ℕ) (method : String)
    (args : Json) : (s.callEnqueue c method args).store = s.store := by
  unfold callEnqueue
  split
  · rfl
  split <;> rfl

@[simp] theorem store_tellEnqueue (s : Sys S Env Op) (t : ℕ) (type : String)
    (payload : Json) (id : ℕ) :
    (s.tellEnqueue t type payload id).store = s.store := by
  unfold tellEnqueue
  dsimp only
  split <;> rfl

/-- The driver writes the snapshot it has encoded. -/
theorem store_saveStep {k : ℕ} {ok : Bool} (hs : s.saveStep k ok = some s') :
    s'.store = s.store
      ∨ ∃ seq version x, s.host.saves[k]? = some ⟨seq, version, .toLand x⟩
        ∧ ok = true ∧ s'.store = s.store.saveSnapshot seq version x := by
  unfold saveStep at hs
  split at hs
  · split at hs <;> obtain rfl := Option.some.inj hs <;> exact .inl rfl
  · next seq version x hk =>
    split at hs <;> obtain rfl := Option.some.inj hs
    · next hok => exact .inr ⟨seq, version, x, hk, hok, rfl⟩
    · exact .inl rfl
  · exact absurd hs (by simp)

/-- A step of another kind makes a deposit, or writes nothing. -/
theorem deposits_step {a : Act Env} (hact : ∀ env ok, a ≠ .activation env ok)
    (ha : ∀ k ok, a ≠ .save k ok) (hs : s.step cfg a = some s') :
    Deposits s.store s'.store := by
  have hsame : ∀ t : Sys S Env Op, t = s' → t.store = s.store →
      Deposits s.store s'.store := by
    rintro t rfl ht
    rw [ht]
    exact .nothing
  cases a with
  | activate => exact hsame _ (Option.some.inj hs) (store_activate cfg s)
  | activation env ok => exact absurd rfl (hact env ok)
  | worker g env ok => exact deposits_workerStep hs
  | deactivation env =>
    exact hsame s' rfl (store_deactStep hs)
  | deactivate env => exact hsame _ (Option.some.inj hs) (store_deactivate s env false)
  | tellStart t type payload =>
    rw [step, tellStart] at hs
    split at hs
    · exact absurd hs (by simp)
    split at hs
    · exact hsame _ (Option.some.inj hs) rfl
    split at hs
    · exact hsame _ (Option.some.inj hs) rfl
    · exact hsame _ (Option.some.inj hs) (store_activate cfg s)
  | tellLand t ok =>
    rw [step, tellLand] at hs
    split at hs
    · split at hs <;> obtain rfl := Option.some.inj hs
      · exact .inbox _
      · exact .nothing
    · dsimp only at hs
      split at hs <;> obtain rfl := Option.some.inj hs
      · exact .ack _
      · exact .nothing
    · exact absurd hs (by simp)
  | tellResume t =>
    rw [step, tellResume] at hs
    split at hs
    · split at hs
      · exact absurd hs (by simp)
      · exact hsame _ (Option.some.inj hs) rfl
      · exact hsame _ (Option.some.inj hs) rfl
    · exact hsame _ (Option.some.inj hs) (store_tellEnqueue s _ _ _ _)
    · exact absurd hs (by simp)
  | callStart c method args =>
    rw [step, callStart] at hs
    split at hs
    · exact absurd hs (by simp)
    split at hs
    · exact hsame _ (Option.some.inj hs) rfl
    split at hs
    · exact hsame _ (Option.some.inj hs) (store_callEnqueue s _ _ _)
    · exact hsame _ (Option.some.inj hs) (store_activate cfg s)
  | callResume c =>
    rw [step, callResume] at hs
    split at hs
    · split at hs
      · exact absurd hs (by simp)
      · exact hsame _ (Option.some.inj hs) (store_callEnqueue s _ _ _)
      · exact hsame _ (Option.some.inj hs) rfl
    · exact absurd hs (by simp)
  | destroy env =>
    refine hsame _ (Option.some.inj hs) ?_
    unfold destroy
    split
    · rfl
    · rw [store_deactivate]
  | idleFire env =>
    rw [step] at hs
    split at hs
    · refine hsame _ (Option.some.inj hs) ?_
      unfold deactivateForIdle
      split
      · rfl
      split
      · rfl
      · rw [store_deactivate]
    · exact absurd hs (by simp)
  | idleEvict =>
    rw [step] at hs
    split at hs
    · exact hsame _ (Option.some.inj hs) rfl
    · exact absurd hs (by simp)
  | snapshotFire =>
    rw [step, snapshotFire] at hs
    split at hs
    · dsimp only at hs
      split at hs <;> exact hsame _ (Option.some.inj hs) rfl
    · exact absurd hs (by simp)
  | flushResume k =>
    rw [step, flushResume] at hs
    split at hs
    · dsimp only at hs
      split at hs
      · exact absurd hs (by simp)
      · exact hsame _ (Option.some.inj hs) rfl
      · exact hsame _ (Option.some.inj hs) rfl
    · exact absurd hs (by simp)
  | save k ok => exact absurd rfl (ha k ok)
  | subscribe l =>
    rw [step, subscribe] at hs
    split at hs
    · exact absurd hs (by simp)
    · exact hsame _ (Option.some.inj hs) rfl
  | unsubscribe l => exact hsame _ (Option.some.inj hs) rfl
  | notifyTombstone => exact hsame _ (Option.some.inj hs) rfl

/-- **Every other step writes in one of these ways, or nothing.** -/
theorem writes_step {a : Act Env} (ha : ∀ k ok, a ≠ .save k ok)
    (hs : s.step cfg a = some s') : Writes s.store s'.store := by
  by_cases hact : ∃ env ok, a = .activation env ok
  · obtain ⟨env, ok, rfl⟩ := hact
    exact writes_actStep hs
  · exact (deposits_step (fun env ok he => hact ⟨env, ok, he⟩) ha hs).writes

/-- **The row stays as it is, or is written anew** by an activation, for the class
of the host. -/
theorem row_step {a : Act Env} (hs : s.step cfg a = some s') :
    s'.store.row = s.store.row
      ∨ ∃ version, s'.store.row = some ⟨cfg.registration.name, version, false⟩ := by
  by_cases hact : ∃ env ok, a = .activation env ok
  · obtain ⟨env, ok, rfl⟩ := hact
    obtain he | he := store_actStep hs
    · exact .inl (congrArg ActorStore.row he)
    · exact .inr ⟨_, congrArg ActorStore.row he⟩
  by_cases hsave : ∃ k ok, a = .save k ok
  · obtain ⟨k, ok, rfl⟩ := hsave
    obtain he | ⟨seq, version, x, -, -, he⟩ := store_saveStep hs <;>
      exact .inl ((congrArg ActorStore.row he).trans rfl)
  · exact .inl (deposits_step (fun env ok he => hact ⟨env, ok, he⟩)
      (fun k ok he => hsave ⟨k, ok, he⟩) hs).row

/-- **The log only grows.** -/
theorem log_step {a : Act Env} (hs : s.step cfg a = some s') :
    ∃ new, s'.store.events = s.store.events ++ new := by
  by_cases ha : ∃ k ok, a = .save k ok
  · obtain ⟨k, ok, rfl⟩ := ha
    refine ⟨[], ?_⟩
    rcases store_saveStep hs with he | ⟨seq, version, x, -, -, he⟩ <;>
      exact he ▸ (List.append_nil _).symm
  · have hw := writes_step (fun k ok he => ha ⟨k, ok, he⟩) hs
    revert hw
    generalize s'.store = st'
    intro hw
    cases hw with
    | events ha =>
      obtain ⟨-, -, -, new, hnew, -⟩ := ActorStore.appendEvents_spec ha
      exact ⟨new, hnew⟩
    | _ => exact ⟨[], (List.append_nil _).symm⟩

end Sys
