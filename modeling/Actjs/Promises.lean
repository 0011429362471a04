import Actjs.Lifecycle

/-!
# The promises of a host

How an activation settled, whether `deactivateForIdle` is about to have its
actor evicted, and whether the host is destroyed: hardly a step has to do with
these. `Sys.outcome_step`, `Sys.idleEvicts_step` and `Sys.destroyed_step` say
which do, and what they do.
-/

open Function (update)

variable {S Env Op : Type}

/-- What the promises of a host come to, and what is decided about it. -/
def Host.promises (h : Host S Env) :
    (ℕ → Option (Except HostError Unit)) × ℕ × Bool :=
  (h.outcome, h.idleEvicts, h.destroyed)

namespace Sys

variable {cfg : HostConfig S Env Op} {s s' : Sys S Env Op} {env : Env} {ok : Bool}

/-! ## A turn -/

theorem promises_commitEsTail (s : Sys S Env Op) (g : ℕ) (item : Item)
    (events : List Json) :
    (s.commitEsTail cfg g item events).host.promises = s.host.promises := by
  unfold commitEsTail
  dsimp only
  split <;> rfl

theorem promises_workerStep {g : ℕ} (hs : s.workerStep cfg g env ok = some s') :
    s'.host.promises = s.host.promises := by
  obtain ⟨pc, -, hseg⟩ := workerSegment hs
  cases hseg with
  | resolveEs | esAcked => exact promises_commitEsTail _ _ _ _
  | _ => rfl

/-! ## An activation -/

theorem promises_activate (s : Sys S Env Op) :
    (s.activate cfg).host.promises = s.host.promises := by
  unfold activate
  split
  · rfl
  split
  · rfl
  · unfold beginActivation
    dsimp only
    split <;> rfl

theorem promises_beginOnActivate (s : Sys S Env Op) (env : Env) :
    (s.beginOnActivate env).host.promises = s.host.promises := by
  unfold beginOnActivate
  split <;> rfl

theorem promises_beginReplay (s : Sys S Env Op) (env : Env) :
    (s.beginReplay env).host.promises = s.host.promises := by
  unfold beginReplay
  split
  · rfl
  · exact promises_beginOnActivate s env

theorem promises_beginOnInit (s : Sys S Env Op) (env : Env) :
    (s.beginOnInit env).host.promises = s.host.promises := by
  unfold beginOnInit
  split
  · exact promises_beginReplay _ env
  · rfl

theorem promises_beginMigrate (s : Sys S Env Op) (prev : SnapshotRead S) :
    (s.beginMigrate prev).host.promises = s.host.promises := by
  unfold beginMigrate
  split <;> rfl

theorem promises_migrated (s : Sys S Env Op) (x : S) :
    (s.migrated x).host.promises = s.host.promises := by
  unfold migrated
  dsimp only
  split <;> rfl

theorem promises_replay (s : Sys S Env Op) (env : Env) :
    (s.replay cfg env).host.promises = s.host.promises := by
  unfold replay
  dsimp only
  split
  · rfl
  · split
    · rfl
    · exact promises_beginOnActivate _ env

theorem promises_enqueueAll (s : Sys S Env Op) (rs : List InboxRecord) :
    (s.enqueueAll rs).2.host.promises = s.host.promises := by
  induction rs generalizing s with
  | nil => rfl
  | cons r rs ih =>
    rw [enqueueAll]
    split
    · rfl
    · exact ih (s.enqueue _)

/-- **An activation settles its promise at its end**, and nothing before. -/
theorem promises_actStep (hs : s.actStep cfg env ok = some s') :
    s'.host.promises = s.host.promises
      ∨ ∃ o, s.host.activating = some (.finishing o) ∧ s' = { s with
        host :=
          { s.host with
            activating := none
            outcome := update s.host.outcome s.host.activation (some o) } } := by
  obtain ⟨pc, hpc, hseg⟩ := actSegment hs
  cases hseg with
  | settled => exact .inr ⟨_, hpc, rfl⟩
  | migrates => exact .inl (promises_beginMigrate _ _)
  | loaded | initialized | noMigrate | audited => exact .inl (promises_beginReplay _ env)
  | registerEs | register => exact .inl (promises_beginOnInit _ env)
  | migrated => exact .inl (promises_migrated _ _)
  | upToDate | replayFlushed => exact .inl (promises_beginOnActivate _ env)
  | replayed => exact .inl (promises_replay _ env)
  | replayInbox => exact .inl (promises_enqueueAll s _)
  | _ => exact .inl rfl

/-! ## A deactivation -/

theorem promises_beginOnDeactivate (s : Sys S Env Op) (env : Env) (idle : Bool) :
    (s.beginOnDeactivate env idle).host.promises = s.host.promises := by
  unfold beginOnDeactivate
  split <;> rfl

theorem promises_beginFinalFlush (s : Sys S Env Op) (env : Env) (idle : Bool) :
    (s.beginFinalFlush env idle).host.promises = s.host.promises := by
  unfold beginFinalFlush
  dsimp only
  split
  · rfl
  · exact promises_beginOnDeactivate _ env idle

theorem promises_deactivate (s : Sys S Env Op) (env : Env) (idle : Bool) :
    (s.deactivate env idle).host.promises = s.host.promises := by
  unfold deactivate
  split
  · rfl
  split
  · rfl
  · dsimp only
    split
    · rfl
    · exact promises_beginFinalFlush _ env idle

/-- **A deactivation for idleness that succeeds has its actor evicted next**. -/
theorem promises_deactStep (hs : s.deactStep env = some s') :
    s'.host.promises = s.host.promises
      ∨ ∃ o idle, s.host.deactivating = some ⟨.finishing o, idle⟩ ∧ s' = { s with
        host :=
          { s.host with
            deactivating := none
            activated := false
            idleEvicts := s.host.idleEvicts + if idle && o.isOk then 1 else 0 } } := by
  obtain ⟨pc, idle, hd, hseg⟩ := deactSegment hs
  cases hseg with
  | settled => exact .inr ⟨_, idle, hd, rfl⟩
  | unflushed | flushed => exact .inl (promises_beginOnDeactivate _ env idle)
  | _ => exact .inl rfl

/-! ## Requests -/

theorem promises_tellStart {t : ℕ} {type : String} {payload : Json}
    (hs : s.tellStart cfg t type payload = some s') :
    s'.host.promises = s.host.promises := by
  unfold tellStart at hs
  split at hs
  · exact absurd hs (by simp)
  split at hs
  · exact Option.some.inj hs ▸ rfl
  split at hs
  · exact Option.some.inj hs ▸ rfl
  · exact Option.some.inj hs ▸ promises_activate s

theorem promises_tellLand {t : ℕ} (hs : s.tellLand t ok = some s') :
    s'.host.promises = s.host.promises := by
  unfold tellLand at hs
  split at hs
  · split at hs <;> exact Option.some.inj hs ▸ rfl
  · dsimp only at hs
    split at hs <;> exact Option.some.inj hs ▸ rfl
  · exact absurd hs (by simp)

theorem promises_tellResume {t : ℕ} (hs : s.tellResume t = some s') :
    s'.host.promises = s.host.promises := by
  unfold tellResume at hs
  split at hs
  · split at hs
    · exact absurd hs (by simp)
    · exact Option.some.inj hs ▸ rfl
    · exact Option.some.inj hs ▸ rfl
  · obtain rfl := Option.some.inj hs
    unfold tellEnqueue
    dsimp only
    split <;> rfl
  · exact absurd hs (by simp)

theorem promises_callEnqueue (s : Sys S Env Op) (c : ℕ) (method : String)
    (args : Json) : (s.callEnqueue c method args).host.promises = s.host.promises := by
  unfold callEnqueue
  split
  · rfl
  · split <;> rfl

theorem promises_callStart {c : ℕ} {method : String} {args : Json}
    (hs : s.callStart cfg c method args = some s') :
    s'.host.promises = s.host.promises := by
  unfold callStart at hs
  split at hs
  · exact absurd hs (by simp)
  split at hs
  · exact Option.some.inj hs ▸ rfl
  split at hs
  · exact Option.some.inj hs ▸ promises_callEnqueue s c method args
  · exact Option.some.inj hs ▸ promises_activate s

theorem promises_callResume {c : ℕ} (hs : s.callResume c = some s') :
    s'.host.promises = s.host.promises := by
  unfold callResume at hs
  split at hs
  · split at hs
    · exact absurd hs (by simp)
    · exact Option.some.inj hs ▸ promises_callEnqueue s c _ _
    · exact Option.some.inj hs ▸ rfl
  · exact absurd hs (by simp)

/-! ## The steps -/

/-- **What a step does to the promises of a host.** -/
theorem promises_step {a : Act Env} (hs : s.step cfg a = some s') :
    s'.host.promises = s.host.promises
      ∨ (∃ env ok o, a = .activation env ok ∧ s.host.activating = some (.finishing o)
        ∧ s' = { s with
          host :=
            { s.host with
              activating := none
              outcome := update s.host.outcome s.host.activation (some o) } })
      ∨ (∃ env o idle, a = .deactivation env
        ∧ s.host.deactivating = some ⟨.finishing o, idle⟩ ∧ s' = { s with
          host :=
            { s.host with
              deactivating := none
              activated := false
              idleEvicts := s.host.idleEvicts + if idle && o.isOk then 1 else 0 } })
      ∨ (∃ env, a = .destroy env)
      ∨ a = .idleEvict ∧ 0 < s.host.idleEvicts
        ∧ s' = { s with host := { s.host with idleEvicts := s.host.idleEvicts - 1 } } := by
  cases a with
  | activate => exact .inl (Option.some.inj hs ▸ promises_activate s)
  | tellStart t type payload => exact .inl (promises_tellStart hs)
  | tellLand t ok => exact .inl (promises_tellLand hs)
  | tellResume t => exact .inl (promises_tellResume hs)
  | callStart c method args => exact .inl (promises_callStart hs)
  | callResume c => exact .inl (promises_callResume hs)
  | activation env ok =>
    rcases promises_actStep hs with h | ⟨o, ho, he⟩
    · exact .inl h
    · exact .inr (.inl ⟨env, ok, o, rfl, ho, he⟩)
  | worker g env ok => exact .inl (promises_workerStep hs)
  | deactivate env => exact .inl (Option.some.inj hs ▸ promises_deactivate s env false)
  | deactivation env =>
    rcases promises_deactStep hs with h | ⟨o, idle, ho, he⟩
    · exact .inl h
    · exact .inr (.inr (.inl ⟨env, o, idle, rfl, ho, he⟩))
  | destroy env => exact .inr (.inr (.inr (.inl ⟨env, rfl⟩)))
  | idleFire env =>
    rw [step] at hs
    split at hs
    · obtain rfl := Option.some.inj hs
      unfold deactivateForIdle
      split
      · exact .inl rfl
      split
      · exact .inl rfl
      · exact .inl (promises_deactivate _ env true)
    · exact absurd hs (by simp)
  | idleEvict =>
    rw [step] at hs
    split at hs
    · next h => exact .inr (.inr (.inr (.inr ⟨rfl, h, (Option.some.inj hs).symm⟩)))
    · exact absurd hs (by simp)
  | snapshotFire =>
    rw [step, snapshotFire] at hs
    split at hs
    · dsimp only at hs
      split at hs <;> exact .inl (Option.some.inj hs ▸ rfl)
    · exact absurd hs (by simp)
  | flushResume k =>
    rw [step, flushResume] at hs
    split at hs
    · dsimp only at hs
      split at hs
      · exact absurd hs (by simp)
      · exact .inl (Option.some.inj hs ▸ rfl)
      · exact .inl (Option.some.inj hs ▸ rfl)
    · exact absurd hs (by simp)
  | save k ok =>
    rw [step, saveStep] at hs
    split at hs
    · split at hs <;> exact .inl (Option.some.inj hs ▸ rfl)
    · split at hs <;> exact .inl (Option.some.inj hs ▸ rfl)
    · exact absurd hs (by simp)
  | subscribe l =>
    rw [step, subscribe] at hs
    split at hs
    · exact absurd hs (by simp)
    · exact .inl (Option.some.inj hs ▸ rfl)
  | unsubscribe l => exact .inl (Option.some.inj hs ▸ rfl)
  | notifyTombstone => exact .inl (Option.some.inj hs ▸ rfl)

/-- The promises that `destroy` settles are none; it decides the rest. -/
theorem promises_destroy (s : Sys S Env Op) (env : Env) :
    (s.destroy env).host.outcome = s.host.outcome
      ∧ (s.destroy env).host.idleEvicts = s.host.idleEvicts := by
  unfold destroy
  split
  · exact ⟨rfl, rfl⟩
  · have h := promises_deactivate
      ({ s with host := { s.host with destroyed := true } } : Sys S Env Op) env false
    exact ⟨congrArg Prod.fst h, congrArg (fun p => p.2.1) h⟩

/-- **An outcome is recorded when an activation ends**, and at no other time. -/
theorem outcome_step {a : Act Env} (hs : s.step cfg a = some s') :
    s'.host.outcome = s.host.outcome
      ∨ ∃ o, s.host.activating = some (.finishing o) ∧ s'.host.activating = none
        ∧ s'.host.activated = s.host.activated
        ∧ s'.host.outcome = update s.host.outcome s.host.activation (some o) := by
  rcases promises_step hs with h | ⟨env, ok, o, -, ho, rfl⟩ | ⟨env, o, idle, -, -, rfl⟩
    | ⟨env, rfl⟩ | ⟨-, -, rfl⟩
  · exact .inl (congrArg Prod.fst h)
  · exact .inr ⟨o, ho, rfl, rfl, rfl⟩
  · exact .inl rfl
  · obtain rfl := Option.some.inj hs
    exact .inl (promises_destroy s env).1
  · exact .inl rfl

/-- **An eviction is due once a deactivation for idleness has ended.** -/
theorem idleEvicts_step {a : Act Env} (hs : s.step cfg a = some s') :
    s'.host.idleEvicts = s.host.idleEvicts
      ∨ (s.host.deactivating ≠ none ∧ s'.host.activated = false
        ∧ s'.host.activating = s.host.activating
        ∧ s'.host.idleEvicts ≤ s.host.idleEvicts + 1)
      ∨ a = .idleEvict ∧ s'.host.idleEvicts + 1 = s.host.idleEvicts
        ∧ s'.flow = s.flow := by
  rcases promises_step hs with h | ⟨env, ok, o, -, ho, rfl⟩ | ⟨env, o, idle, -, hd, rfl⟩
    | ⟨env, rfl⟩ | ⟨ha, hpos, rfl⟩
  · exact .inl (congrArg (fun p => p.2.1) h)
  · exact .inl rfl
  · refine .inr (.inl ⟨by simp [hd], rfl, rfl, ?_⟩)
    dsimp only
    split <;> omega
  · obtain rfl := Option.some.inj hs
    exact .inl (promises_destroy s env).2
  · exact .inr (.inr ⟨ha, Nat.sub_add_cancel hpos, rfl⟩)

/-- An eviction was due, and nothing else changes. -/
theorem idleEvict_eq (hs : s.step cfg .idleEvict = some s') :
    0 < s.host.idleEvicts
      ∧ s' = { s with host := { s.host with idleEvicts := s.host.idleEvicts - 1 } } := by
  rw [step] at hs
  split at hs
  · next hpos => exact ⟨hpos, (Option.some.inj hs).symm⟩
  · exact absurd hs (by simp)

end Sys

/-! ## Becoming activated -/

/-- An activation is in progress that has not activated the host. -/
def HostFlow.Early (f : HostFlow) : Prop := f.phase = .loading ∨ f.phase = .opening

/-- The host is activated, or an activation in progress is to activate it. -/
def HostFlow.Rising (f : HostFlow) : Prop := f.activated = true ∨ f.Early

/-- The same of a host. -/
def Host.Early (h : Host S Env) : Prop :=
  (h.activating.map ActPc.phase).getD .idle = .loading
    ∨ (h.activating.map ActPc.phase).getD .idle = .opening

/-- The host is activated, or on its way there. -/
def Host.Rising (h : Host S Env) : Prop := h.activated = true ∨ h.Early

/-- `activate()` would begin an activation. -/
def Host.dormant (h : Host S Env) : Bool :=
  !h.activated && h.activating.isNone && !h.destroyed

namespace HostFlow

variable {f f' : HostFlow}

/-- A tell that goes on leaves the life of the host alone. -/
theorem Telling.life {t : ℕ} (h : f.Telling t f') :
    f'.activated = f.activated ∧ f'.phase = f.phase := by
  cases h <;> exact ⟨rfl, rfl⟩

/-- So does a call. -/
theorem Calling.life {c : ℕ} (h : f.Calling c f') :
    f'.activated = f.activated ∧ f'.phase = f.phase := by
  cases h <;> exact ⟨rfl, rfl⟩

/-- So does what asks for a deactivation. -/
theorem Closing.life (h : f.Closing f') (hl : Lifecycle f.toLife) :
    f'.activated = f.activated ∧ f'.phase = f.phase := by
  cases h with
  | none => exact ⟨rfl, rfl⟩
  | close hd ha hw => exact ⟨rfl, rfl⟩
  | unattended f' hd ha hw =>
    exact absurd hw (hl.present ha (fun hd' => by simp [hd] at hd')).1

/-- A deactivation leaves the activation alone, and activates nothing. -/
theorem Deactivating.life (h : f.Deactivating f') :
    (f'.activated = true → f.activated = true) ∧ f'.phase = f.phase := by
  cases h with
  | finish hd => exact ⟨fun h => absurd h (by simp), rfl⟩
  | _ => exact ⟨id, rfl⟩

/-- A worker leaves both alone. -/
theorem Working.life {g : ℕ} (h : f.Working g f') :
    f'.activated = f.activated ∧ f'.phase = f.phase := by
  cases h <;> exact ⟨rfl, rfl⟩

/-- An activation that has not activated the host has not before. -/
theorem Activating.early (h : f.Activating f') (he : f'.Early) : f.Early := by
  cases h with
  | load hp => exact .inl hp
  | opening hc =>
    cases hc with
    | earlier hp => exact .inr hp
    | now hp => exact .inl hp
  | activated hc => rcases he with he | he <;> exact absurd he (by simp)
  | failed hp => rcases he with he | he <;> exact absurd he (by simp)
  | read hp => rcases he with he | he <;> exact absurd he (by simp)
  | replayed hp => rcases he with he | he <;> exact absurd he (by simp)
  | settled hp => rcases he with he | he <;> exact absurd he (by simp)

/-- A host is activated by an activation that was to. -/
theorem Activating.activated_of (h : f.Activating f') (ha : f'.activated = true) :
    f.Rising := by
  cases h with
  | activated hc =>
    cases hc with
    | earlier hp => exact .inr (.inr hp)
    | now hp => exact .inr (.inl hp)
  | replayed hp =>
    rw [enqueueAll_frame] at ha
    exact .inl ha
  | _ => exact .inl ha

end HostFlow

/-- What activates a host that is not. -/
def Act.rouses {Env : Type} : Act Env → Bool
  | activate => true
  | tellStart _ _ _ => true
  | callStart _ _ _ => true
  | _ => false

namespace Sys

variable {cfg : HostConfig S Env Op} {s s' : Sys S Env Op}

/-- `activate()` begins an activation of a dormant host. -/
theorem early_activate (h : (s.activate cfg).flow.Early) :
    s.flow.Early ∨ s.host.dormant = true := by
  unfold activate at h
  split at h
  · exact .inl h
  next ha =>
  split at h
  · exact .inl h
  next hb =>
  unfold beginActivation at h
  dsimp only at h
  split at h
  · rcases h with h | h <;> exact absurd h (by simp [flow, setActivating, ActPc.phase])
  · next hd => exact .inr (by simp [Host.dormant, ha, Option.not_isSome_iff_eq_none.mp hb, hd])

/-- What a step that rouses nothing does to the life of a host. -/
theorem life_step {a : Act Env} (hl : Lifecycle s.flow.toLife)
    (ha : a.rouses = false) (hs : s.step cfg a = some s') :
    (s'.flow.Early → s.flow.Early)
      ∧ (s'.flow.activated = true → s.flow.activated = true
        ∨ s.flow.Early ∧ ∃ env ok, a = .activation env ok) := by
  have hm := flow_step hs
  have hsame : s'.flow.activated = s.flow.activated ∧ s'.flow.phase = s.flow.phase →
      (s'.flow.Early → s.flow.Early) ∧ (s'.flow.activated = true →
        s.flow.activated = true ∨ s.flow.Early ∧ ∃ env ok, a = .activation env ok) :=
    fun h => ⟨fun he => he.imp h.2.symm.trans h.2.symm.trans,
      fun h' => .inl (h.1.symm.trans h')⟩
  have hflow : s'.flow = s.flow → (s'.flow.Early → s.flow.Early)
      ∧ (s'.flow.activated = true →
        s.flow.activated = true ∨ s.flow.Early ∧ ∃ env ok, a = .activation env ok) :=
    fun h => hsame ⟨by rw [h], by rw [h]⟩
  cases a with
  | activate => exact absurd ha (by simp [Act.rouses])
  | tellStart t type payload => exact absurd ha (by simp [Act.rouses])
  | callStart c method args => exact absurd ha (by simp [Act.rouses])
  | tellLand t ok => exact hsame (HostFlow.Telling.life hm)
  | tellResume t => exact hsame (HostFlow.Telling.life hm)
  | callResume c => exact hsame (HostFlow.Calling.life hm.2)
  | activation env ok =>
    exact ⟨HostFlow.Activating.early hm, fun h =>
      (HostFlow.Activating.activated_of hm h).imp id (fun he => ⟨he, env, ok, rfl⟩)⟩
  | worker g env ok => exact hsame (HostFlow.Working.life hm)
  | deactivate env => exact hsame (HostFlow.Closing.life hm hl)
  | deactivation env =>
    have h := HostFlow.Deactivating.life hm
    exact ⟨fun he => he.imp h.2.symm.trans h.2.symm.trans, fun h' => .inl (h.1 h')⟩
  | destroy env => exact hsame (HostFlow.Closing.life hm hl)
  | idleFire env => exact hsame (HostFlow.Closing.life hm hl)
  | flushResume k =>
    obtain ⟨es, hf⟩ := hm
    exact hsame ⟨by rw [hf], by rw [hf]⟩
  | idleEvict => exact hflow hm
  | snapshotFire => exact hflow hm
  | save k ok => exact hflow hm
  | subscribe l => exact hflow hm
  | unsubscribe l => exact hflow hm
  | notifyTombstone => exact hflow hm

/-- What a step that rouses a host does to its life. -/
theorem life_rouses {a : Act Env} (ha : a.rouses = true)
    (hs : s.step cfg a = some s') :
    s'.host.activated = s.host.activated
      ∧ (s'.flow.Early → s.flow.Early ∨ s.host.dormant = true) := by
  have hact : (s.activate cfg).host.activated = s.host.activated := by
    unfold activate
    split
    · rfl
    split
    · rfl
    · unfold beginActivation
      dsimp only
      split <;> rfl
  cases a with
  | activate =>
    obtain rfl := Option.some.inj hs
    exact ⟨hact, early_activate⟩
  | tellStart t type payload =>
    rw [step, tellStart] at hs
    split at hs
    · exact absurd hs (by simp)
    split at hs
    · obtain rfl := Option.some.inj hs
      exact ⟨rfl, .inl⟩
    split at hs <;> obtain rfl := Option.some.inj hs
    · exact ⟨rfl, .inl⟩
    · exact ⟨hact, fun he => early_activate he⟩
  | callStart c method args =>
    rw [step, callStart] at hs
    split at hs
    · exact absurd hs (by simp)
    split at hs
    · obtain rfl := Option.some.inj hs
      exact ⟨rfl, .inl⟩
    split at hs <;> obtain rfl := Option.some.inj hs
    · have hlife := HostFlow.Calling.life (flow_callEnqueue (s := s) (c := c) method args)
      exact ⟨hlife.1, fun he => .inl (he.imp hlife.2.symm.trans hlife.2.symm.trans)⟩
    · exact ⟨hact, fun he => early_activate he⟩
  | _ => exact absurd ha (by simp [Act.rouses])

/-- **A host rises when it is dormant and roused**, and at no other time. -/
theorem rising_step {a : Act Env} (hl : Lifecycle s.flow.toLife)
    (hs : s.step cfg a = some s') (h : s'.host.Rising) :
    s.host.Rising ∨ a.rouses = true ∧ s.host.dormant = true := by
  by_cases ha : a.rouses = true
  · obtain ⟨hact, hearly⟩ := life_rouses ha hs
    rcases h with h | h
    · exact .inl (.inl (hact.symm.trans h))
    · exact (hearly h).imp .inr (fun hd => ⟨ha, hd⟩)
  · obtain ⟨hearly, hact⟩ := life_step hl (by simpa using ha) hs
    rcases h with h | h
    · exact .inl ((hact h).imp id And.left)
    · exact .inl (.inr (hearly h))

/-- **An activation begins when a dormant host is roused**, and while it is to
activate the host it does not settle. -/
theorem early_step {a : Act Env} (hl : Lifecycle s.flow.toLife)
    (hs : s.step cfg a = some s') (h : s'.host.Early) :
    (s.host.Early ∧ s'.host.outcome = s.host.outcome)
      ∨ a.rouses = true ∧ s.host.dormant = true := by
  have hout : s'.host.outcome = s.host.outcome := by
    rcases outcome_step hs with he | ⟨o, -, hn, -⟩
    · exact he
    · rcases h with h | h <;> exact absurd h (by simp [hn])
  by_cases ha : a.rouses = true
  · exact ((life_rouses ha hs).2 h).imp (fun he => ⟨he, hout⟩) (fun hd => ⟨ha, hd⟩)
  · exact .inl ⟨(life_step hl (by simpa using ha) hs).1 h, hout⟩

end Sys
