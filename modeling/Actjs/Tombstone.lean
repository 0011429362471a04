import Actjs.Directory
import Actjs.Flushing

/-!
# Tombstoning an actor

`Runtime.tombstone` asks the destroy policy of the class of the host that the
directory holds, tells its subscribers, and has the driver mark the row; the
doc comment says that it then evicts the host. There is no eviction in it, and
where the directory holds no host no policy is asked.

Nothing else looks at the mark either, so what becomes of the actor is up to
its hosts and to later requests. `Host.Resting` is a host in which nothing runs
and which keeps to that by itself; `Runtime.Gone` says that every host of an
actor is at rest and none is cached, and `Runtime.Gone.step` that it stays so
until a request rouses a host or constructs one.
-/

open Function (update)

variable {S Env Op : Type}

/-! ## A host at rest

It has no worker alive, no activation and no deactivation in progress, and
nothing in it begins one: only a request does. -/

/-- **Nothing runs in the host, or is about to.** By its own steps a host at
rest stays so: only a request begins an activation. -/
structure Host.Resting (h : Host S Env) : Prop where
  activated : h.activated = false
  activating : h.activating = none

namespace Host.Resting

variable {cfg : HostConfig S Env Op} {s s' : Sys S Env Op}

/-- No handler runs in it. -/
theorem not_alive (h : s.host.Resting) (hl : Lifecycle s.flow.toLife) (g : ℕ) :
    (s.host.workers g).stage.alive = false :=
  hl.not_alive h.activated g

/-- It is not being deactivated. -/
theorem not_deactivating (h : s.host.Resting) (hl : Lifecycle s.flow.toLife) :
    s.host.deactivating = none := by
  by_contra hd
  obtain ⟨d, hd⟩ := Option.ne_none_iff_exists'.mp hd
  have ha := hl.activated_of_deact hd
  exact absurd ha (by simp [h.activated])

/-- Where its flow is. -/
theorem of_flow (ha : s.flow.activated = false) (hp : s.flow.phase = .idle) :
    s.host.Resting := by
  refine ⟨ha, ?_⟩
  by_contra hne
  obtain ⟨pc, hpc⟩ := Option.ne_none_iff_exists'.mp hne
  have hp' : (s.host.activating.map ActPc.phase).getD .idle = .idle := hp
  rw [hpc] at hp'
  cases pc <;> exact absurd hp' (by simp [ActPc.phase])

theorem phase (h : s.host.Resting) : s.flow.phase = .idle := by
  show (s.host.activating.map ActPc.phase).getD .idle = .idle
  rw [h.activating]
  rfl

/-- A tell that goes on leaves the host at rest. -/
theorem of_telling {t : ℕ} (h : s.host.Resting) (hm : s.flow.Telling t s'.flow) :
    s'.host.Resting := by
  have hf : s'.flow.activated = s.flow.activated ∧ s'.flow.phase = s.flow.phase := by
    revert hm
    generalize s'.flow = f'
    intro hm
    cases hm <;> exact ⟨rfl, rfl⟩
  exact .of_flow (hf.1.trans h.activated) (hf.2.trans h.phase)

/-- So does a call. -/
theorem of_calling {c : ℕ} (h : s.host.Resting) (hm : s.flow.Calling c s'.flow) :
    s'.host.Resting := by
  have hf : s'.flow.activated = s.flow.activated ∧ s'.flow.phase = s.flow.phase := by
    revert hm
    generalize s'.flow = f'
    intro hm
    cases hm <;> exact ⟨rfl, rfl⟩
  exact .of_flow (hf.1.trans h.activated) (hf.2.trans h.phase)

/-- There is nothing to deactivate. -/
theorem of_closing (h : s.host.Resting) (hm : s.flow.Closing s'.flow) :
    s'.host.Resting := by
  have hf : s'.flow = s.flow := by
    revert hm
    generalize s'.flow = f'
    intro hm
    cases hm with
    | none => rfl
    | close hd ha hw => exact absurd (ha.symm.trans h.activated) (by simp)
    | unattended f' hd ha hw => exact absurd (ha.symm.trans h.activated) (by simp)
  exact .of_flow (hf ▸ h.activated) (hf ▸ h.phase)

/-- **A host at rest stays at rest by itself**, and tells its subscribers
nothing. -/
theorem own (h : s.host.Resting) (hl : Lifecycle s.flow.toLife) {a : Act Env}
    (ha : a.own = true ∨ ∃ l, a = .unsubscribe l) (hs : s.step cfg a = some s') :
    s'.host.Resting ∧ s'.hist.notifs = s.hist.notifs := by
  have hm := Sys.flow_step hs
  -- a request that goes on, or a timer
  have hside : a.beside = true → s'.host.Resting →
      s'.host.Resting ∧ s'.hist.notifs = s.hist.notifs :=
    fun hb hr => ⟨hr, (Sys.beside_step hl hb hs).notifs⟩
  have hsame : s'.flow = s.flow → s'.host.Resting :=
    fun hf => .of_flow (hf ▸ h.activated) (hf ▸ h.phase)
  cases a with
  | tellLand t ok => exact hside rfl (h.of_telling hm)
  | tellResume t => exact hside rfl (h.of_telling hm)
  | callResume c => exact hside rfl (h.of_calling hm.2)
  | activation env ok =>
    rw [Sys.step, Sys.actStep, h.activating] at hs
    exact absurd hs (by simp)
  | worker g env ok =>
    exact absurd (Sys.alive_of_workerStep hs) (by simp [h.not_alive hl g])
  | deactivate env => exact hside rfl (h.of_closing hm)
  | deactivation env =>
    rw [Sys.step, Sys.deactStep, h.not_deactivating hl] at hs
    exact absurd hs (by simp)
  | idleFire env => exact hside rfl (h.of_closing hm)
  | idleEvict => exact hside rfl (hsame hm)
  | snapshotFire =>
    refine ⟨hsame hm, ?_⟩
    rw [Sys.step, Sys.snapshotFire] at hs
    split at hs
    · dsimp only at hs
      split at hs <;> obtain rfl := Option.some.inj hs <;> rfl
    · exact absurd hs (by simp)
  | flushResume k =>
    obtain ⟨es, hf⟩ := hm
    exact hside rfl (.of_flow (hf ▸ h.activated) (hf ▸ h.phase))
  | save k ok =>
    refine ⟨hsame hm, ?_⟩
    rw [Sys.step, Sys.saveStep] at hs
    split at hs
    · split at hs <;> obtain rfl := Option.some.inj hs <;> rfl
    · split at hs <;> obtain rfl := Option.some.inj hs <;> rfl
    · exact absurd hs (by simp)
  | unsubscribe l =>
    refine ⟨hsame hm, ?_⟩
    obtain rfl := Option.some.inj hs
    rfl
  | _ => simp [Act.own] at ha

/-- A destroyed host is not roused by a call or a tell. -/
theorem destroyed (h : s.host.Resting) (hd : s.host.destroyed = true) {q : ℕ}
    {a : Act Env} (ha : (∃ method args, a = .callStart q method args)
      ∨ ∃ type payload, a = .tellStart q type payload)
    (hs : s.step cfg a = some s') :
    s'.host.Resting ∧ s'.hist.notifs = s.hist.notifs := by
  obtain ⟨method, args, rfl⟩ | ⟨type, payload, rfl⟩ := ha
  · rw [Sys.step, Sys.callStart, if_pos hd] at hs
    split at hs
    · exact absurd hs (by simp)
    · obtain rfl := Option.some.inj hs
      exact ⟨⟨h.activated, h.activating⟩, rfl⟩
  · rw [Sys.step, Sys.tellStart, if_pos hd] at hs
    split at hs
    · exact absurd hs (by simp)
    · obtain rfl := Option.some.inj hs
      exact ⟨⟨h.activated, h.activating⟩, rfl⟩

end Host.Resting

/-! ## An actor that is gone

All its hosts are at rest, and the directory has none. What a later request
may do about that is to construct a host, or to rouse one it still refers to.
-/

namespace Runtime

/-- **No host of the actor is live**: none is cached or on its way there, and
every one there ever was is at rest. Old hosts are included, since a caller
may still refer to one. -/
structure Gone (rt : Runtime S Env Op) (id : ActorId) : Prop where
  hosts : rt.hosts id = none
  materializing : rt.materializing id = none
  resting : ∀ r o, rt.objects r = some o → o.id = id → o.host.Resting

/-- What a process has told subscribers through the hosts of the actor, no host
that was not there having told anything. -/
def Silent (id : ActorId) (rt rt' : Runtime S Env Op) : Prop :=
  ∀ r o', rt'.objects r = some o' → o'.id = id →
    ∃ o, rt.objects r = some o ∧ o.id = id ∧ o'.hist.notifs = o.hist.notifs

/-- **`resolve` constructs a host for the request.** -/
def constructs (cfg : RuntimeConfig S Env Op) (rt : Runtime S Env Op) (ask : Ask)
    (admitted : Bool) (id : ActorId) : Bool :=
  match ask.target with
  | none => false
  | some (c, id') =>
    id' == id && ask.admits admitted && !rt.destroyed && (rt.hosts id).isNone
      && (rt.materializing id).isNone && (cfg.classes c).isSome && !rt.atCap cfg c

/-- The host that a method is called of, if the request is a call of one. -/
def holder (rt : Runtime S Env Op) : Ask → Option (HostObject S Env Op)
  | .hostCall of _ _ => (rt.returnedTo of).bind rt.objects
  | .hostTell of _ _ => (rt.returnedTo of).bind rt.objects
  | _ => none

/-- The policy denies the request, once it has its host. -/
def refuses (cfg : RuntimeConfig S Env Op) (o : HostObject S Env Op) : Ask → Bool
  | .call c id method args p =>
    !(cfg.checkPolicy c p (.call method args (policyActor cfg c id o))).isOk
  | .tell c id type payload p =>
    !(cfg.checkPolicy c p (.call type payload (policyActor cfg c id o))).isOk
  | _ => false

/-- **A request does nothing to the host it has got**: it asks for nothing but
the host or the policy's answer, the policy denies it, or the host is
destroyed, which refuses calls and tells. -/
def passes (cfg : RuntimeConfig S Env Op) (o : HostObject S Env Op) (ask : Ask) :
    Bool :=
  match ask with
  | .subscribe _ _ => false
  | .call _ _ _ _ _ => refuses cfg o ask || o.host.destroyed
  | .tell _ _ _ _ _ => refuses cfg o ask || o.host.destroyed
  | _ => true

/-- **The step leaves an actor that is gone alone**: no host is constructed for
it, and none of those there were is called or subscribed to. -/
def avoids (cfg : RuntimeConfig S Env Op) (id : ActorId) (rt : Runtime S Env Op) :
    RuntimeAct Env → Bool
  | .start _ ask admitted =>
    !rt.constructs cfg ask admitted id
      && (rt.holder ask).all (fun o => o.id != id || o.host.destroyed)
  | .resume q _ =>
    match rt.requests q with
    | some ⟨ask, .resolved r⟩ =>
      (rt.objects r).all (fun o => o.id != id || passes cfg o ask)
    | _ => true
  | _ => true

namespace Silent

theorem refl (id : ActorId) (rt : Runtime S Env Op) : Silent id rt rt :=
  fun _ o ho hid => ⟨o, ho, hid, rfl⟩

theorem trans {id : ActorId} {rt t rt' : Runtime S Env Op} (h : Silent id rt t)
    (h' : Silent id t rt') : Silent id rt rt' := by
  intro r o' ho' hid
  obtain ⟨o₁, ho₁, hid₁, hn₁⟩ := h' r o' ho' hid
  obtain ⟨o, ho, hid₀, hn⟩ := h r o₁ ho₁ hid₁
  exact ⟨o, ho, hid₀, hn₁.trans hn⟩

end Silent

namespace Gone

variable {cfg : RuntimeConfig S Env Op} {rt rt' : Runtime S Env Op} {id : ActorId}
  {r : ℕ} {o : HostObject S Env Op} {s : Sys S Env Op}

/-- No handler runs on the actor. -/
theorem not_alive (h : rt.Gone id) (hrt : rt.Sound) (ho : rt.objects r = some o)
    (hid : o.id = id) (g : ℕ) : (o.host.workers g).stage.alive = false :=
  (h.resting r o ho hid).not_alive (s := rt.sys o) (hrt.lifecycle r o ho) g

/-- A step of one object, which if it is one of the actor stays at rest. -/
theorem setSys (h : rt.Gone id) (ho : rt.objects r = some o)
    (hs : o.id = id → s.host.Resting ∧ s.hist.notifs = o.hist.notifs) :
    (rt.setSys r o s).Gone id ∧ Silent id rt (rt.setSys r o s) := by
  refine ⟨⟨h.hosts, h.materializing, fun r' o' ho' hid => ?_⟩, fun r' o' ho' hid => ?_⟩
  · by_cases he : r' = r
    · subst he
      rw [objects_setSys_self] at ho'
      obtain rfl := Option.some.inj ho'
      exact (hs hid).1
    · rw [objects_setSys_ne he] at ho'
      exact h.resting r' o' ho' hid
  · by_cases he : r' = r
    · subst he
      rw [objects_setSys_self] at ho'
      obtain rfl := Option.some.inj ho'
      exact ⟨o, ho, hid, (hs hid).2⟩
    · rw [objects_setSys_ne he] at ho'
      exact ⟨o', ho', hid, rfl⟩

/-- What does not touch the objects, and caches no host of the actor. -/
theorem of_objects (h : rt.Gone id) (ho : rt'.objects = rt.objects)
    (hh : rt'.hosts id = none) (hm : rt'.materializing id = none) :
    rt'.Gone id ∧ Silent id rt rt' :=
  ⟨⟨hh, hm, fun r o ho' hid => h.resting r o (ho ▸ ho') hid⟩,
    fun _ o' ho' hid => ⟨o', ho ▸ ho', hid, rfl⟩⟩

/-- What becomes of the requests does not matter. -/
theorem requests {rt₀ : Runtime S Env Op} {tasks : ℕ → Option AskTask}
    (h : rt.Gone id ∧ Silent id rt₀ rt) :
    { rt with requests := tasks }.Gone id ∧ Silent id rt₀ { rt with requests := tasks } :=
  ⟨⟨h.1.hosts, h.1.materializing, h.1.resting⟩, h.2⟩

theorem hosts_evict (h : rt.hosts id = none) (id' : ActorId) :
    (rt.evict id').hosts id = none := by
  unfold evict
  split
  · exact h
  · by_cases he : id = id'
    · exact he ▸ Function.update_self _ _ _
    · exact (Function.update_of_ne he _ _).trans h

/-- A request that has its host do something does not do it to the actor. -/
theorem serve (h : rt.Gone id) {x : RuntimeAct Env} {q : ℕ} {ask : Ask}
    {a : Act Env} {pc : AskPc} (hG : rt.avoids cfg id x = true)
    (ho : rt.objects r = some o) (hserve : Serves cfg rt q r o x ask a pc)
    (hs : (rt.sys o).step o.cfg a = some s) (hid : o.id = id) :
    s.host.Resting ∧ s.hist.notifs = o.hist.notifs := by
  have hrest : (rt.sys o).host.Resting := h.resting r o ho hid
  -- a request that has resolved its actor passes the host by
  have hpasses : ∀ {q ok}, x = .resume q ok → rt.requests q = some ⟨ask, .resolved r⟩ →
      passes cfg o ask = true := by
    rintro q ok rfl hq
    rw [avoids, hq] at hG
    simpa [ho, hid] using hG
  have hheld : ∀ {of q admitted}, x = .start q ask admitted →
      rt.holder ask = (rt.returnedTo of).bind rt.objects → rt.returnedTo of = some r →
      o.host.destroyed = true := by
    rintro of q admitted rfl hholder hr
    have hall := (Bool.and_eq_true_iff.mp hG).2
    rw [hholder, hr, Option.bind_some, ho] at hall
    simpa [hid] using hall
  cases hserve with
  | call hq hp =>
    have hd : o.host.destroyed = true := by
      simpa [passes, refuses, hp, Except.isOk, Except.toBool] using hpasses rfl hq
    exact hrest.destroyed hd (.inl ⟨_, _, rfl⟩) hs
  | tell hq hp =>
    have hd : o.host.destroyed = true := by
      simpa [passes, refuses, hp, Except.isOk, Except.toBool] using hpasses rfl hq
    exact hrest.destroyed hd (.inr ⟨_, _, rfl⟩) hs
  | subscribe hq => exact absurd (hpasses rfl hq) (by simp [passes])
  | hostCall hq hr => exact hrest.destroyed (hheld rfl rfl hr) (.inl ⟨_, _, rfl⟩) hs
  | hostTell hq hr => exact hrest.destroyed (hheld rfl rfl hr) (.inr ⟨_, _, rfl⟩) hs

/-- **An actor that is gone stays gone**, and its subscribers are told nothing,
while every step leaves it alone. -/
theorem step {x : RuntimeAct Env} (h : rt.Gone id) (hrt : rt.Sound)
    (hG : rt.avoids cfg id x = true) (hs : rt.step cfg x = some rt') :
    rt'.Gone id ∧ Silent id rt rt' := by
  have hm := step_moves hs
  clear hs
  -- what an object does by itself
  have hown : ∀ {r o a s}, rt.objects r = some o →
      a.own = true ∨ (∃ l, a = .unsubscribe l) → (rt.sys o).step o.cfg a = some s →
      o.id = id → s.host.Resting ∧ s.hist.notifs = o.hist.notifs := by
    intro r o a s ho ha hs hid
    have hrest : (rt.sys o).host.Resting := h.resting r o ho hid
    exact hrest.own (hrt.lifecycle r o ho) ha hs
  cases hm with
  | answer ha => exact h.of_objects rfl h.hosts h.materializing
  | @materialize q ask admitted c id' registration hq ht ha hd hh hm hc hcap =>
    have hne : id' ≠ id := by
      rintro rfl
      have hcon := (Bool.and_eq_true_iff.mp hG).1
      simp [constructs, ht, ha, hd, hh, hm, hc, hcap] at hcon
    refine ⟨⟨h.hosts, (Function.update_of_ne hne.symm _ _).trans h.materializing,
      fun r o ho hid => ?_⟩, fun r o ho hid => ?_⟩
    · by_cases he : r = rt.constructed
      · subst he
        obtain rfl := Option.some.inj (objects_materialize_self.symm.trans ho)
        exact absurd hid hne
      · exact h.resting r o ((objects_materialize_ne he).symm.trans ho) hid
    · by_cases he : r = rt.constructed
      · subst he
        obtain rfl := Option.some.inj (objects_materialize_self.symm.trans ho)
        exact absurd hid hne
      · exact ⟨o, (objects_materialize_ne he).symm.trans ho, hid, rfl⟩
  | @install q ask ok r o result hq ho hr =>
    have hne : id ≠ o.id := by
      rintro rfl
      exact absurd (hrt.creating q ask r o hq ho).1 (by simp [h.materializing])
    refine h.of_objects objects_install ?_ ?_
    · cases result with
      | ok _ => exact (Function.update_of_ne hne _ _).trans h.hosts
      | error e => exact h.hosts
    · cases result with
      | ok _ => exact (Function.update_of_ne hne _ _).trans h.materializing
      | error e => exact (Function.update_of_ne hne _ _).trans h.materializing
  | serve ho hserve hs => exact requests (h.setSys ho (h.serve hG ho hserve hs))
  | @tombstone q admitted id' p r o s hq hh ho hs =>
    have hne : o.id ≠ id := by
      rintro hid
      obtain ⟨o', ho', rfl⟩ := hrt.hosts id' r hh
      obtain rfl := Option.some.inj (ho.symm.trans ho')
      exact absurd hh (by simp [hid, h.hosts])
    have hsys := h.setSys (s := s) ho (fun hid => absurd hid hne)
    exact requests (requests hsys)
  | tombstoned hq => exact h.of_objects rfl h.hosts h.materializing
  | own ho ha hne hs => exact h.setSys ho (hown ho (.inl ha) hs)
  | @evict r o s ho hs =>
    obtain ⟨hg, hsil⟩ := h.setSys ho (hown ho (.inl rfl) hs)
    obtain ⟨hg', hsil'⟩ := hg.of_objects objects_evict (hosts_evict hg.hosts o.id)
      (by rw [materializing_evict]; exact hg.materializing)
    exact ⟨hg', hsil.trans hsil'⟩
  | unsubscribe hq ho hs => exact requests (h.setSys ho (hown ho (.inr ⟨_, rfl⟩) hs))
  | shutdown => exact h.of_objects rfl h.hosts h.materializing
  | @destroyHosts env hd =>
    have hobj : ∀ {r o'}, (rt.objects r).map (fun o =>
          if rt.hosts o.id = some r then rt.destroyObject env o else o) = some o' →
        o'.id = id → rt.objects r = some o' := by
      intro r o' ho' hid
      obtain ⟨o, ho, rfl⟩ := Option.map_eq_some_iff.mp ho'
      have hid₀ : o.id = id := by
        rw [← hid]
        split <;> rfl
      rwa [if_neg (by simp [hid₀, h.hosts])]
    exact ⟨⟨rfl, h.materializing, fun r o ho hid => h.resting r o (hobj ho hid) hid⟩,
      fun r o ho hid => ⟨o, hobj ho hid, hid, rfl⟩⟩

/-- **So it does in every run.** -/
theorem run {xs : List (RuntimeAct Env)} (h : rt.Gone id) (hrt : rt.Sound)
    (hG : TransitionSystem.Along (Runtime.step cfg)
      (fun rt x => rt.avoids cfg id x = true) rt xs)
    (hrun : TransitionSystem.run (Runtime.step cfg) rt xs = some rt') :
    rt'.Gone id ∧ Silent id rt rt' :=
  (TransitionSystem.run_invariant (Runtime.step cfg)
    (P := fun t => t.Sound ∧ t.Gone id ∧ Silent id rt t)
    (fun _ _ _ ⟨hrt, hgone, hsil⟩ hG hs => by
      obtain ⟨hgone', hsil'⟩ := hgone.step hrt hG hs
      exact ⟨hrt.step hs, hgone', hsil.trans hsil'⟩)
    ⟨hrt, h, .refl id rt⟩ hG hrun).2

end Gone

/-- Whether the actor is gone, checked object by object. -/
def gone (rt : Runtime S Env Op) (id : ActorId) : Bool :=
  (rt.hosts id).isNone && (rt.materializing id).isNone
    && (List.range rt.constructed).all (fun r => (rt.objects r).all (fun o =>
      o.id != id || (!o.host.activated && o.host.activating.isNone)))

theorem gone_of_sound {rt : Runtime S Env Op} {id : ActorId} (hrt : rt.Sound)
    (h : rt.gone id = true) : rt.Gone id := by
  simp only [gone, Bool.and_eq_true, Option.isNone_iff_eq_none, List.all_eq_true,
    List.mem_range] at h
  obtain ⟨⟨hh, hm⟩, hall⟩ := h
  refine ⟨hh, hm, fun r o ho hid => ?_⟩
  have ho' := hall r (hrt.bound r o ho)
  rw [ho] at ho'
  have hrest : o.host.activated = false ∧ o.host.activating = none := by
    simpa [hid] using ho'
  exact ⟨hrest.1, hrest.2⟩

/-! ## Who may destroy an actor

The policy is asked through the host that the directory holds; where there is
none, nobody is asked. -/

/-- `getLive`. -/
def getLive (rt : Runtime S Env Op) (id : ActorId) : Option (HostObject S Env Op) :=
  (rt.hosts id).bind rt.objects

/-- **The class of an actor**: that of its row, or that of its host as long as
it has no row. -/
def actorClass (rt : Runtime S Env Op) (id : ActorId) : Option ClassName :=
  match (rt.stores id).row with
  | some row => some row.cls
  | none => (rt.getLive id).map HostObject.className

/-- An actor as a policy is to see it: what its host has, or else what storage
has. -/
def seenBy (cfg : RuntimeConfig S Env Op) (rt : Runtime S Env Op) (id : ActorId)
    (c : ClassName) : PolicyActor :=
  match rt.getLive id with
  | some o => policyActor cfg c id o
  | none =>
    { ref := ⟨c, id, ((rt.stores id).row.map ActorRow.version).getD ""⟩
      state := ((rt.stores id).loadSnapshot.map
        (fun snap => cfg.toJson snap.state)).getD .null }

/-- **The destroy policy of the class of the actor allows the principal.** -/
def MayDestroy (cfg : RuntimeConfig S Env Op) (rt : Runtime S Env Op)
    (id : ActorId) (p : Principal) : Prop :=
  ∀ c, rt.actorClass id = some c →
    cfg.checkPolicy c p (.destroy (rt.seenBy cfg id c)) = .ok ()

/-- The directory holds a host of the actor, and under the class of the
actor. -/
def asksItsPolicy (rt : Runtime S Env Op) (id : ActorId) : Bool :=
  match rt.getLive id with
  | some o => rt.actorClass id == some o.className
  | none => false

/-- What `tombstone` comes to up to its first await. -/
theorem start_tombstone {cfg : RuntimeConfig S Env Op} {rt rt' : Runtime S Env Op}
    {q : ℕ} {id : ActorId} {p : Principal} {admitted : Bool}
    (h : rt.step cfg (.start q (.tombstone id p) admitted) = some rt') :
    (∃ e, rt'.requests q = some ⟨.tombstone id p, .rejected e⟩)
      ∨ rt'.requests q = some ⟨.tombstone id p, .tombstoning⟩
        ∧ ∀ o, rt.getLive id = some o → cfg.checkPolicy o.className p
            (.destroy (policyActor cfg o.className id o)) = .ok () := by
  simp only [step, start, tombstone] at h
  split at h
  · exact absurd h (by simp)
  split at h
  · next hh =>
    obtain rfl := Option.some.inj h
    exact .inr ⟨requests_setRequest_self, fun o ho => absurd ho (by simp [getLive, hh])⟩
  next r hh =>
  split at h
  · exact absurd h (by simp)
  next o ho =>
  unfold permitted at h
  split at h
  · next hp =>
    obtain ⟨o', s, -, -, rfl⟩ := hostStep_map h
    refine .inr ⟨requests_setRequest_self, fun o₁ ho₁ => ?_⟩
    rw [getLive, hh, Option.bind_some, ho] at ho₁
    exact Option.some.inj ho₁ ▸ hp
  · next e he =>
    obtain rfl := Option.some.inj h
    exact .inl ⟨e, requests_setRequest_self⟩

/-- A tombstone that lands was not rejected, and is the one that was asked for. -/
theorem lands {cfg : RuntimeConfig S Env Op} {q : ℕ} {id : ActorId} {p : Principal}
    {admitted : Bool} {ys : List (RuntimeAct Env)}
    {asked started landing resolved : Runtime S Env Op}
    (hstart : asked.step cfg (.start q (.tombstone id p) admitted) = some started)
    (hrun : TransitionSystem.run (step cfg) started ys = some landing)
    (hland : landing.step cfg (.resume q true) = some resolved) :
    (∀ e, started.requests q ≠ some ⟨.tombstone id p, .rejected e⟩)
      ∧ landing.requests q = some ⟨.tombstone id p, .tombstoning⟩ := by
  have hover : ∀ {pc}, pc.over = true →
      landing.requests q ≠ some ⟨.tombstone id p, pc⟩ := by
    intro pc hpc hq
    rw [step, resume, hq] at hland
    cases pc with
    | done => exact absurd hland (by simp)
    | rejected e => exact absurd hland (by simp)
    | _ => exact absurd hpc (by simp [AskPc.over])
  -- what is over stays over
  have hstays : ∀ {pc}, pc.over = true →
      started.requests q ≠ some ⟨.tombstone id p, pc⟩ := by
    intro pc hpc hq
    refine hover hpc (TransitionSystem.run_invariant' (step cfg)
      (P := fun rt => rt.requests q = some ⟨.tombstone id p, pc⟩)
      (fun rt x rt' hq hs => ?_) hq hrun)
    rcases (step_moves hs).late hq (AskPc.late_of_over hpc) with hq' | ⟨rfl, -⟩
    · exact hq'
    · exact absurd hpc (by simp [AskPc.over])
  have hlate : ∃ pc, started.requests q = some ⟨.tombstone id p, pc⟩
      ∧ pc.late = true := by
    obtain ⟨e, he⟩ | ⟨hq, -⟩ := start_tombstone hstart
    · exact ⟨_, he, rfl⟩
    · exact ⟨_, hq, rfl⟩
  refine ⟨fun e => hstays rfl, ?_⟩
  obtain ⟨pc, hq, hpc⟩ := TransitionSystem.run_invariant' (step cfg)
    (P := fun rt => ∃ pc, rt.requests q = some ⟨.tombstone id p, pc⟩ ∧ pc.late = true)
    (fun rt x rt' h hs => by
      obtain ⟨pc, hq, hpc⟩ := h
      rcases (step_moves hs).late hq hpc with hq' | ⟨-, pc', hq', hover'⟩
      · exact ⟨pc, hq', hpc⟩
      · exact ⟨pc', hq', AskPc.late_of_over hover'⟩)
    hlate hrun
  cases pc with
  | tombstoning => exact hq
  | done => exact absurd hq (hover rfl)
  | rejected e => exact absurd hq (hover rfl)
  | _ => exact absurd hpc (by simp [AskPc.late, AskPc.over])

/-- **What the code asks is what it should ask**, where the directory holds the
actor under its own class. -/
theorem mayDestroy_of_start {cfg : RuntimeConfig S Env Op} {rt rt' : Runtime S Env Op}
    {q : ℕ} {id : ActorId} {p : Principal} {admitted : Bool}
    (h : rt.step cfg (.start q (.tombstone id p) admitted) = some rt')
    (hne : ∀ e, rt'.requests q ≠ some ⟨.tombstone id p, .rejected e⟩)
    (hask : rt.asksItsPolicy id = true) : rt.MayDestroy cfg id p := by
  intro c hc
  unfold asksItsPolicy at hask
  split at hask
  · next o ho =>
    obtain ⟨e, he⟩ | ⟨-, hp⟩ := start_tombstone h
    · exact absurd he (hne e)
    · have hcls : c = o.className := Option.some.inj (hc.symm.trans (beq_iff_eq.mp hask))
      rw [seenBy, ho, hcls]
      exact hp o ho
  · exact absurd hask (by simp)

/-! ## What a tombstone is to do

From the request to any later state: who has allowed it, and that nothing of
the actor runs from then on. -/

/-- **A tombstone is honoured**, from where it is asked for, to where it has
resolved, to any later state: the policy of the actor allowed it, no host of the
actor is live, no handler runs on it, and since it resolved its subscribers were
told nothing. -/
structure TombstoneHonoured (cfg : RuntimeConfig S Env Op) (id : ActorId)
    (p : Principal) (asked resolved later : Runtime S Env Op) : Prop where
  allowed : asked.MayDestroy cfg id p
  dead : later.hosts id = none
    ∧ ∀ r o, later.objects r = some o → o.id = id → o.host.activated = false
  unhandled : ∀ r o, later.objects r = some o → o.id = id →
    ∀ g, (o.host.workers g).stage.alive = false
  silent : Silent id resolved later

/-- **Tombstones are honoured** if the directory holds the actor under its class
when it is asked for, or the policy that is not asked would have allowed it; if
the actor is gone by itself when the driver marks it; and if every later step
leaves it alone. -/
theorem tombstone_honoured (cfg : RuntimeConfig S Env Op)
    (stores : ActorId → ActorStore S) (id : ActorId) (p : Principal)
    {q : ℕ} {admitted : Bool} {xs ys zs : List (RuntimeAct Env)}
    {asked started landing resolved later : Runtime S Env Op}
    (hrun : TransitionSystem.run (step cfg) (init stores) xs = some asked)
    (hstart : asked.step cfg (.start q (.tombstone id p) admitted) = some started)
    (hrun' : TransitionSystem.run (step cfg) started ys = some landing)
    (hland : landing.step cfg (.resume q true) = some resolved)
    (hrun'' : TransitionSystem.run (step cfg) resolved zs = some later)
    (hask : asked.asksItsPolicy id = true ∨ asked.MayDestroy cfg id p)
    (hgone : landing.Gone id)
    (haway : TransitionSystem.Along (step cfg)
      (fun rt x => rt.avoids cfg id x = true) resolved zs) :
    TombstoneHonoured cfg id p asked resolved later := by
  have hsound : started.Sound := (Sound.run hrun).step hstart
  have hsound' : landing.Sound :=
    TransitionSystem.run_invariant' (step cfg) (fun _ _ _ h hs => h.step hs) hsound hrun'
  obtain ⟨hne, hq⟩ := lands hstart hrun' hland
  have hgone₁ : resolved.Gone id :=
    (hgone.step hsound' (by rw [avoids, hq]) hland).1
  obtain ⟨hgone₂, hsilent⟩ := hgone₁.run (hsound'.step hland) haway hrun''
  have hsound'' : later.Sound :=
    TransitionSystem.run_invariant' (step cfg) (fun _ _ _ h hs => h.step hs)
      (hsound'.step hland) hrun''
  exact
    { allowed := hask.elim (mayDestroy_of_start hstart hne) (fun h => h)
      dead := ⟨hgone₂.hosts, fun r o ho hid => (hgone₂.resting r o ho hid).activated⟩
      unhandled := fun r o ho hid g => hgone₂.not_alive hsound'' ho hid g
      silent := hsilent }

/-! ## A counter that is tombstoned -/

/-- A call that materializes the counter. -/
def calledFirst : List (RuntimeAct Bool) :=
  .start 0 (.call "Counter" "counter-1" "inc" .null Counter.admin) true
    :: Counter.hostActivating 0 7 ++ [.resume 0 true, .resume 0 true]
    ++ Counter.hostWorking 0 1 4

/-- The host goes idle, and is evicted. -/
def evicted : List (RuntimeAct Bool) :=
  .host 0 (.idleFire true) :: Counter.hostWorking 0 1 1
    ++ [.host 0 (.deactivation true), .host 0 (.save 0 true), .host 0 (.save 0 true),
      .host 0 (.deactivation true), .host 0 (.deactivation true), .host 0 .idleEvict]

/-- The theorem applies where an admin tombstones a counter that is live, which is
evicted before the driver marks it, and a call comes after the directory was
shut down. -/
theorem tombstone_honoured_evicted :
    ∃ asked started landing resolved later : Runtime ℕ Bool ℕ,
      TransitionSystem.run (step Counter.runtime) (init (Counter.stored 5)) calledFirst
        = some asked
      ∧ asked.step Counter.runtime (.start 1 (.tombstone "counter-1" Counter.admin) true)
        = some started
      ∧ TransitionSystem.run (step Counter.runtime) started evicted = some landing
      ∧ landing.step Counter.runtime (.resume 1 true) = some resolved
      ∧ TransitionSystem.run (step Counter.runtime) resolved
          [.shutdown, .start 2 (.call "Counter" "counter-1" "inc" .null Counter.admin) true]
        = some later
      ∧ TombstoneHonoured Counter.runtime "counter-1" Counter.admin asked resolved
          later := by
  have hrun : (TransitionSystem.run (step Counter.runtime) (init (Counter.stored 5))
      calledFirst).any (fun asked => asked.asksItsPolicy "counter-1"
        && (asked.step Counter.runtime
          (.start 1 (.tombstone "counter-1" Counter.admin) true)).any (fun started =>
            (TransitionSystem.run (step Counter.runtime) started evicted).any
              (fun landing => landing.gone "counter-1"
                && (landing.step Counter.runtime (.resume 1 true)).any (fun resolved =>
                  decide (TransitionSystem.Along (step Counter.runtime)
                    (fun rt x => rt.avoids Counter.runtime "counter-1" x = true) resolved
                    [.shutdown,
                      .start 2 (.call "Counter" "counter-1" "inc" .null Counter.admin) true])
                  && (TransitionSystem.run (step Counter.runtime) resolved
                    [.shutdown,
                      .start 2 (.call "Counter" "counter-1" "inc" .null Counter.admin)
                        true]).isSome)))) = true := by decide +kernel
  obtain ⟨asked, hasked, h⟩ := (Option.any_eq_true _ _).mp hrun
  obtain ⟨hask, h⟩ := Bool.and_eq_true_iff.mp h
  obtain ⟨started, hstarted, h⟩ := (Option.any_eq_true _ _).mp h
  obtain ⟨landing, hlanding, h⟩ := (Option.any_eq_true _ _).mp h
  obtain ⟨hgone, h⟩ := Bool.and_eq_true_iff.mp h
  obtain ⟨resolved, hresolved, h⟩ := (Option.any_eq_true _ _).mp h
  obtain ⟨haway, h⟩ := Bool.and_eq_true_iff.mp h
  obtain ⟨later, hlater⟩ := Option.isSome_iff_exists.mp h
  have hsound : landing.Sound :=
    TransitionSystem.run_invariant' (step Counter.runtime)
      (fun _ _ _ h hs => h.step hs) ((Sound.run hasked).step hstarted) hlanding
  exact ⟨asked, started, landing, resolved, later, hasked, hstarted, hlanding, hresolved,
    hlater, tombstone_honoured Counter.runtime (Counter.stored 5) "counter-1"
      Counter.admin hasked hstarted hlanding hresolved hlater (.inl hask)
      (gone_of_sound hsound hgone) (of_decide_eq_true haway)⟩

/-- Someone subscribes to the counter, and calls it. -/
def revived : List (RuntimeAct Bool) :=
  .start 1 (.subscribe "Counter" "counter-1") true :: Counter.hostActivating 0 7
    ++ [.resume 1 true, .resume 1 true,
      .start 2 (.call "Counter" "counter-1" "inc" .null anonymousPrincipal) true,
      .resume 2 true]
    ++ Counter.hostWorking 0 1 2

/-- **An anonymous principal tombstones a counter that is only in storage**, which
its policy allows an admin only; and then the counter goes on as before: it is
materialized, handles a call, and sends the patch to a subscriber. -/
theorem not_tombstone_honoured :
    ∃ started resolved later : Runtime ℕ Bool ℕ,
      isSystem anonymousPrincipal = false
      ∧ (init (Counter.stored 5)).step Counter.runtime
          (.start 0 (.tombstone "counter-1" anonymousPrincipal) true) = some started
      ∧ started.step Counter.runtime (.resume 0 true) = some resolved
      ∧ ((resolved.stores "counter-1").row.map ActorRow.tombstoned) = some true
      ∧ TransitionSystem.run (step Counter.runtime) resolved revived = some later
      ∧ ¬(init (Counter.stored 5) : Runtime ℕ Bool ℕ).MayDestroy Counter.runtime
          "counter-1" anonymousPrincipal
      ∧ later.hosts "counter-1" = some 0
      ∧ ((later.objects 0).map (fun o => (o.host.activated, o.host.state,
          o.hist.taken.length, (o.hist.notifs 1).length))) = some (true, 6, 1, 2)
      ∧ ¬Silent "counter-1" resolved later := by
  have hrun : ((init (Counter.stored 5)).step Counter.runtime
      (.start 0 (.tombstone "counter-1" anonymousPrincipal) true)).any (fun started =>
        (started.step Counter.runtime (.resume 0 true)).any (fun resolved =>
          ((resolved.stores "counter-1").row.map ActorRow.tombstoned) == some true
          && (resolved.objects 0).isNone
          && (TransitionSystem.run (step Counter.runtime) resolved revived).any
            (fun later => later.hosts "counter-1" == some 0
              && ((later.objects 0).map (fun o => (o.host.activated, o.host.state,
                o.hist.taken.length, (o.hist.notifs 1).length)))
                  == some (true, 6, 1, 2)
              && (later.objects 0).any (fun o => o.id == "counter-1")))) = true := by
    decide +kernel
  obtain ⟨started, hstarted, h⟩ := (Option.any_eq_true _ _).mp hrun
  obtain ⟨resolved, hresolved, h⟩ := (Option.any_eq_true _ _).mp h
  obtain ⟨h, hlater⟩ := Bool.and_eq_true_iff.mp h
  obtain ⟨hmark, hnone⟩ := Bool.and_eq_true_iff.mp h
  obtain ⟨later, hlater, h⟩ := (Option.any_eq_true _ _).mp hlater
  obtain ⟨h, hid⟩ := Bool.and_eq_true_iff.mp h
  obtain ⟨hhosts, hobj⟩ := Bool.and_eq_true_iff.mp h
  obtain ⟨o, ho, hid⟩ := (Option.any_eq_true _ _).mp hid
  refine ⟨started, resolved, later, by decide, hstarted, hresolved, beq_iff_eq.mp hmark,
    hlater, fun hmay => ?_, beq_iff_eq.mp hhosts, beq_iff_eq.mp hobj, fun hsilent => ?_⟩
  · exact absurd (congrArg Except.toBool (hmay "Counter" rfl)) (by decide)
  · -- the host that the call ran on was not there when the tombstone resolved
    obtain ⟨o', ho', -⟩ := hsilent 0 o ho (beq_iff_eq.mp hid)
    exact absurd ho' (by simp [Option.isNone_iff_eq_none.mp hnone])

end Runtime
