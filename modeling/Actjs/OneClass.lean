import Actjs.ActiveCap
import Actjs.Draining

/-!
# One class for an actor

The directory caches hosts by actor alone, and `resolve` returns the host it
has whatever class it was asked for; the policy that a request is put to is
that of the class it names. A host never compares what it loads with its own
class either: the row of an actor is written by whoever activates it first.

So the classes of the directory, of storage and of the requests are kept
together by the requests alone. If those that have a host constructed name the
class of the row, where there is one, then no actor is activated under two
classes; and if those that find a host name its class, then it is the class whose
policy has let a message pass that handles it. The step in between is that a host
that any request has got has a row of its own class: one whose activation fails
before it has written the row is got by nobody, and does nothing more.
-/

open Function (update)

variable {S Env Op : Type}

/-! ## The code of a host

A host runs the constructor that its activation decided on, which is one of
its own class. -/

namespace HostConfig

/-- The code of the class of the host: as registered, or of a version that the
loader has. -/
def Code (cfg : HostConfig S Env Op) (cls : ActorClass S Env) : Prop :=
  cls = cfg.registration.ctor
    ∨ ∃ load version, cfg.loader = some load
      ∧ load cfg.registration.name version = .ok cls

/-- **`resolveCtor` resolves to the code of the class.** -/
theorem Code.of_resolveCtor {cfg : HostConfig S Env Op} {persisted : Option Version}
    {ok : Bool} {r : Resolved S Env} (h : cfg.resolveCtor persisted ok = .ok r) :
    cfg.Code r.ctor := resolveCtor_ctor h

end HostConfig

namespace Sys

variable {cfg : HostConfig S Env Op} {s s' : Sys S Env Op} {env : Env}

/-- The host has the code of its class, and so has what its activation is about
to construct. -/
structure RunsCode (cfg : HostConfig S Env Op) (s : Sys S Env Op) : Prop where
  cls : cfg.Code s.host.cls
  resolved : ∀ snap r, s.host.activating = some (.loadFence snap r) → cfg.Code r.ctor

/-- The class and the activation are left alone. -/
structure KeepsCode (s s' : Sys S Env Op) : Prop where
  cls : s'.host.cls = s.host.cls
  activating : s'.host.activating = s.host.activating

theorem keepsCode_commitEsTail (s : Sys S Env Op) (g : ℕ) (item : Item)
    (events : List Json) : KeepsCode s (s.commitEsTail cfg g item events) := by
  unfold commitEsTail
  dsimp only
  split <;> exact ⟨rfl, rfl⟩

/-- A turn leaves them alone, -/
theorem keepsCode_workerStep {g : ℕ} {ok : Bool}
    (hs : s.workerStep cfg g env ok = some s') : KeepsCode s s' := by
  obtain ⟨pc, hpc, hseg⟩ := workerSegment hs
  cases hseg with
  | @resolveEs method args c events seq x =>
    exact { keepsCode_commitEsTail ((s.afterFold events seq x).resolveCall
      (.call method args c) c (.arr events)) g _ events with }
  | @esAcked item id events =>
    exact { keepsCode_commitEsTail (s.afterAck id) g item events with }
  | _ => exact ⟨rfl, rfl⟩

theorem keepsCode_beginOnDeactivate (s : Sys S Env Op) (env : Env) (idle : Bool) :
    KeepsCode s (s.beginOnDeactivate env idle) := by
  unfold beginOnDeactivate
  split <;> exact ⟨rfl, rfl⟩

/-- and so does a deactivation. -/
theorem keepsCode_deactStep (hs : s.deactStep env = some s') : KeepsCode s s' := by
  obtain ⟨pc, idle, hd, hseg⟩ := deactSegment hs
  cases hseg with
  | unflushed | flushed => exact { keepsCode_beginOnDeactivate _ env idle with }
  | _ => exact ⟨rfl, rfl⟩

namespace RunsCode

theorem keeps (h : RunsCode cfg s) (hk : KeepsCode s s') : RunsCode cfg s' where
  cls := hk.cls ▸ h.cls
  resolved snap r hr := h.resolved snap r (hk.activating ▸ hr)

/-- A host that was just constructed. -/
theorem init (cfg : HostConfig S Env Op) (store : ActorStore S) :
    RunsCode cfg (.init cfg store) where
  cls := .inl rfl
  resolved snap r hr := absurd hr (by simp [Sys.init, Host.init])

/-- **Every step of a host keeps to the code of its class.** -/
theorem step {a : Act Env} (h : RunsCode cfg s) (hl : Lifecycle s.flow.toLife)
    (hs : s.step cfg a = some s') : RunsCode cfg s' := by
  by_cases hb : a.beside = true
  · have hbeside := beside_step hl hb hs
    exact
      { cls := hbeside.cls ▸ h.cls
        resolved := fun snap r hr => h.resolved snap r (hbeside.activating_eq hr rfl) }
  cases a with
  | activation env ok =>
    have ho := opens_actStep hs
    refine ⟨?_, fun snap r hr => ?_⟩
    · obtain hc | ⟨snap, r, hpc, hc⟩ := ho.cls
      · exact hc ▸ h.cls
      · exact hc ▸ h.resolved snap r hpc
    · obtain hr | ⟨persisted, ok, hres⟩ := ho.resolved snap r hr
      · exact h.resolved snap r hr
      · exact .of_resolveCtor hres
  | worker g env ok => exact h.keeps (keepsCode_workerStep hs)
  | deactivation env => exact h.keeps (keepsCode_deactStep hs)
  | snapshotFire =>
    rw [Sys.step, snapshotFire] at hs
    split at hs
    · dsimp only at hs
      split at hs <;> obtain rfl := Option.some.inj hs <;> exact h.keeps ⟨rfl, rfl⟩
    · exact absurd hs (by simp)
  | save k ok =>
    rw [Sys.step, saveStep] at hs
    split at hs
    · split at hs <;> obtain rfl := Option.some.inj hs <;> exact h.keeps ⟨rfl, rfl⟩
    · split at hs <;> obtain rfl := Option.some.inj hs <;> exact h.keeps ⟨rfl, rfl⟩
    · exact absurd hs (by simp)
  | subscribe l =>
    rw [Sys.step, Sys.subscribe] at hs
    split at hs
    · exact absurd hs (by simp)
    · obtain rfl := Option.some.inj hs
      exact h.keeps ⟨rfl, rfl⟩
  | unsubscribe l =>
    obtain rfl := Option.some.inj hs
    exact h.keeps ⟨rfl, rfl⟩
  | notifyTombstone =>
    obtain rfl := Option.some.inj hs
    exact h.keeps ⟨rfl, rfl⟩
  | _ => exact absurd rfl hb

end RunsCode

end Sys

/-! ## Hosts that have not registered their actor

Until the row is written a host is nothing to anybody; if its activation fails
by then, it stays so. -/

/-- The activation has neither found a row nor written one. -/
def ActPc.unregistered : ActPc S Env → Bool
  | loadSnapshot => true
  | resolveCtor snap => snap.isNone
  | loadFence snap _ => snap.isNone
  | register => true
  | finishing o => !o.isOk
  | _ => false

/-- **A host in its first activation, before the row of its actor is written**, or
after that activation has failed there. It is otherwise as it was constructed. -/
structure Host.Unregistered (h : Host S Env) : Prop where
  activation : h.activation = 1
  activated : h.activated = false
  workers : ∀ g, h.workers g = .absent
  tells : ∀ t, h.tells t = none
  calls : ∀ c, h.calls c = none
  saves : h.saves = []
  timerFlushes : h.timerFlushes = []
  snapshotTimer : h.snapshotTimer = false
  idleTimer : h.idleTimer = false
  idleEvicts : h.idleEvicts = 0
  deactivating : h.deactivating = none
  begun : ∀ pc, h.activating = some pc → pc.unregistered = true ∧ h.outcome 1 = none
  failed : h.activating = none → ∃ e, h.outcome 1 = some (.error e)

namespace Host.Unregistered

variable {cfg : HostConfig S Env Op} {s s' : Sys S Env Op} {env : Env}

/-- The activation does not succeed before it has the row. -/
theorem outcome_ne (h : s.host.Unregistered) : s.host.outcome 1 ≠ some (.ok ()) := by
  cases hpc : s.host.activating with
  | none =>
    obtain ⟨e, he⟩ := h.failed hpc
    simp [he]
  | some pc => simp [(h.begun pc hpc).2]

/-- It goes on to a point where there is no row yet. -/
theorem setActivating (h : s.host.Unregistered) {pc pc' : ActPc S Env}
    (hpc : s.host.activating = some pc) (hpc' : pc'.unregistered = true) :
    (s.setActivating pc').host.Unregistered :=
  { h with
    begun := fun pc'' he =>
      ⟨Option.some.inj he ▸ hpc', (h.begun pc hpc).2⟩
    failed := fun he => absurd he (by simp [Sys.setActivating]) }

/-- A new object has its activation before it. -/
theorem new (cfg : HostConfig S Env Op) (store : ActorStore S) :
    (HostObject.new cfg store).host.Unregistered where
  activation := rfl
  activated := rfl
  workers _ := rfl
  tells _ := rfl
  calls _ := rfl
  saves := rfl
  timerFlushes := rfl
  snapshotTimer := rfl
  idleTimer := rfl
  idleEvicts := rfl
  deactivating := rfl
  begun pc he := ⟨Option.some.inj he ▸ rfl, rfl⟩
  failed he := absurd he (by simp [HostObject.new, Sys.activate, Sys.beginActivation,
    Sys.init, Host.init])

/-- **A segment of the activation** leads to such a host again, or registers the
actor. -/
theorem of_actStep {ok : Bool} (h : s.host.Unregistered) (hrow : s.store.row = none)
    (hs : s.actStep cfg env ok = some s') :
    (s'.host.Unregistered ∧ s'.store = s.store)
      ∨ ∃ version, s'.store.row = some ⟨cfg.registration.name, version, false⟩ := by
  obtain ⟨pc, hpc, hseg⟩ := Sys.actSegment hs
  obtain ⟨hun, hout⟩ := h.begun pc hpc
  cases hseg with
  | failed e => exact .inl ⟨h.setActivating hpc rfl, rfl⟩
  | loadSnapshot =>
    exact .inl ⟨h.setActivating hpc (by
      simp [ActPc.unregistered, ActorStore.loadSnapshot, hrow]), rfl⟩
  | @resolveCtor snap r =>
    let t : Sys S Env Op :=
      { s with host := { s.host with runningVersion := r.runningVersion } }
    have ht : t.host.Unregistered := { h with }
    exact .inl ⟨ht.setActivating hpc hun, rfl⟩
  | @blank r =>
    have ht : (s.construct r r.ctor.blank).host.Unregistered := { h with }
    exact .inl ⟨ht.setActivating hpc rfl, rfl⟩
  | registerEs | register =>
    exact .inr ⟨_, congrArg ActorStore.row (Sys.store_beginOnInit _ _)⟩
  | @settled o =>
    cases o with
    | ok _ => exact absurd hun (by simp [ActPc.unregistered, Except.isOk, Except.toBool])
    | error e =>
      refine .inl ⟨{ h with begun := fun pc he => absurd he (by simp), failed := fun _ => ?_ }, rfl⟩
      exact ⟨e, by simp [h.activation]⟩
  | _ => exact absurd hun (by simp [ActPc.unregistered])

/-- By itself it does nothing but go on with the activation. -/
theorem of_own {a : Act Env} (h : s.host.Unregistered) (ha : a.own = true)
    (hs : s.step cfg a = some s') : s' = s ∨ ∃ env ok, a = .activation env ok := by
  cases a with
  | activation env ok => exact .inr ⟨env, ok, rfl⟩
  | worker g env ok => exact absurd hs (by simp [Sys.step, Sys.workerStep, h.workers])
  | deactivation env => exact absurd hs (by simp [Sys.step, Sys.deactStep, h.deactivating])
  | deactivate env =>
    obtain rfl := Option.some.inj hs
    refine .inl ?_
    simp [Sys.deactivate, h.deactivating, h.activated]
  | tellLand t ok => exact absurd hs (by simp [Sys.step, Sys.tellLand, h.tells])
  | tellResume t => exact absurd hs (by simp [Sys.step, Sys.tellResume, h.tells])
  | callResume c => exact absurd hs (by simp [Sys.step, Sys.callResume, h.calls])
  | idleFire env => exact absurd hs (by simp [Sys.step, h.idleTimer])
  | idleEvict => exact absurd hs (by simp [Sys.step, h.idleEvicts])
  | snapshotFire => exact absurd hs (by simp [Sys.step, Sys.snapshotFire, h.snapshotTimer])
  | flushResume k => exact absurd hs (by simp [Sys.step, Sys.flushResume, h.timerFlushes])
  | save k ok => exact absurd hs (by simp [Sys.step, Sys.saveStep, h.saves])
  | _ => exact absurd ha (by simp [Act.own])

/-- **A step of its own** leads to such a host again, or registers the actor. -/
theorem of_step {a : Act Env} (h : s.host.Unregistered)
    (hrow : s.host.activating ≠ none → s.store.row = none) (ha : a.own = true)
    (hs : s.step cfg a = some s') :
    (s'.host.Unregistered ∧ s'.store = s.store
        ∧ (s'.host.activating ≠ none → s.store.row = none))
      ∨ s.host.outcome 1 = none ∧ s.store.row = none
        ∧ ∃ version, s'.store.row = some ⟨cfg.registration.name, version, false⟩ := by
  rcases h.of_own ha hs with rfl | ⟨env, ok, rfl⟩
  · exact .inl ⟨h, rfl, hrow⟩
  cases hpc : s.host.activating with
  | none =>
    rw [Sys.step, Sys.actStep, hpc] at hs
    exact absurd hs (by simp)
  | some pc =>
    have hnone : s.store.row = none := hrow (by simp [hpc])
    rcases h.of_actStep hnone hs with ⟨h', he⟩ | hrow'
    · exact .inl ⟨h', he, fun _ => hnone⟩
    · exact .inr ⟨(h.begun pc hpc).2, hnone, hrow'⟩

end Host.Unregistered

/-! ## The classes of requests, of hosts and of storage

Three things that name a class for one actor. The invariant says which of them
agree, and the condition which requests keep it. -/

/-- The class that a message or a read names, unless it is one of the system; whose
policy it is put to, therefore. -/
def Ask.named : Ask → Option ClassName
  | call c _ _ _ p => if isSystem p = true then none else some c
  | tell c _ _ _ p => if isSystem p = true then none else some c
  | checkRead c _ p => if isSystem p = true then none else some c
  | subscribe c _ => some c
  | _ => none

/-- The object that a request goes on with once `resolve` has returned it. -/
def AskPc.got : AskPc → Option ℕ
  | creating _ => none
  | waiting _ => none
  | pc => pc.object

theorem Ask.target_of_named {ask : Ask} {c : ClassName} (h : ask.named = some c) :
    ∃ id, ask.target = some (c, id) := by
  have hown : ∀ {c' : ClassName} {p : Principal},
      (if isSystem p = true then none else some c') = some c → c' = c := by
    intro c' p h
    split at h
    · exact absurd h (by simp)
    · exact Option.some.inj h
  cases ask with
  | call c' id method args p => exact ⟨id, by rw [target, hown h]⟩
  | tell c' id type payload p => exact ⟨id, by rw [target, hown h]⟩
  | checkRead c' id p => exact ⟨id, by rw [target, hown h]⟩
  | subscribe c' id => exact ⟨id, by rw [target, Option.some.inj h]⟩
  | _ => exact absurd h (by simp [named])

theorem AskPc.object_of_got {pc : AskPc} {r : ℕ} (h : pc.got = some r) :
    pc.object = some r := by
  cases pc <;> first | exact h | exact absurd h (by simp [got])

namespace Runtime

/-- The row of its actor is of the class of the object. -/
def Registered (rt : Runtime S Env Op) (o : HostObject S Env Op) : Prop :=
  ∃ row, (rt.stores o.id).row = some row ∧ row.cls = o.className

/-- The object that a request for the actor finds in the directory. -/
def found (rt : Runtime S Env Op) (id : ActorId) : Option ℕ :=
  (rt.hosts id).or (rt.materializing id)

/-- A message or a read that finds a host of the actor names its class, unless it is
one of the system. -/
def findsClass (rt : Runtime S Env Op) (ask : Ask) (id : ActorId) : Bool :=
  ((rt.found id).bind rt.objects).all (fun o => ask.named.all (· == o.className))

/-- The row of the actor, if there is one, is of the class. -/
def storesClass (rt : Runtime S Env Op) (id : ActorId) (c : ClassName) : Bool :=
  (rt.stores id).row.all (fun row => row.cls == c)

/-- **A request that is made keeps to the class of its actor**: if it finds a host,
to the class of that, and if it has one constructed, to that of the row. -/
def keepsClass (cfg : RuntimeConfig S Env Op) (rt : Runtime S Env Op) :
    RuntimeAct Env → Bool
  | .start _ ask admitted =>
    ask.target.all (fun (c, id) =>
      !ask.admits admitted || rt.destroyed
        || rt.findsClass ask id
          && (!rt.materializes cfg ask admitted c id || rt.storesClass id c))
  | _ => true

/-- No step has the object do anything. -/
def Inert (cfg : RuntimeConfig S Env Op) (rt : Runtime S Env Op) (r : ℕ) : Prop :=
  ∀ x rt', rt.step cfg x = some rt' →
    rt'.objects r = rt.objects r ∧ ∀ a, x = .host r a → rt' = rt

/-- The rows that there are stay, under their classes. -/
def KeepsRows (rt rt' : Runtime S Env Op) : Prop :=
  ∀ id row, (rt.stores id).row = some row →
    ∃ row', (rt'.stores id).row = some row' ∧ row'.cls = row.cls

/-- **No class is confused with another.** A message or a read is with a host of the
class it names, unless it is one of the system; a host runs the code of its class,
one of another class than that of the row does nothing, and the row keeps its
class. -/
structure Unconfused (cfg : RuntimeConfig S Env Op) (rt : Runtime S Env Op) : Prop where
  named : ∀ q ask pc r o c, rt.requests q = some ⟨ask, pc⟩ → pc.object = some r →
    rt.objects r = some o → ask.named = some c → o.className = c
  code : ∀ r o, rt.objects r = some o → ∃ registration,
    cfg.classes o.className = some registration
      ∧ o.cfg = cfg.hostConfig o.id registration ∧ o.cfg.Code o.host.cls
  stored : ∀ r o row, rt.objects r = some o → (rt.stores o.id).row = some row →
    row.cls ≠ o.className → rt.Inert cfg r
  rows : ∀ x rt', rt.step cfg x = some rt' → rt.KeepsRows rt'

/-- **What keeps an actor with one class.** A host that has been got has a row of
its own class; one that has not has been there since before the row was written,
and is being materialized until its activation is over. -/
structure Classed (cfg : RuntimeConfig S Env Op) (rt : Runtime S Env Op) : Prop where
  /-- Every host was made for a registered class, which is its own. -/
  config : ∀ r o, rt.objects r = some o → ∃ registration,
    cfg.classes o.className = some registration ∧ o.cfg = cfg.hostConfig o.id registration
  code : ∀ r o, rt.objects r = some o → (rt.sys o).RunsCode o.cfg
  /-- It has registered its actor, or found a row of its class; or it has done
  neither, and nobody has got it. -/
  object : ∀ r o, rt.objects r = some o → rt.Registered o
    ∨ o.host.Unregistered ∧ (o.host.activating ≠ none → (rt.stores o.id).row = none)
  pending : ∀ r o, rt.objects r = some o → o.host.outcome 1 = none →
    rt.materializing o.id = some r
  hosts : ∀ id r o, rt.hosts id = some r → rt.objects r = some o → rt.Registered o
  /-- What a request has got is a host of the first kind. -/
  requests : ∀ q ask pc r o, rt.requests q = some ⟨ask, pc⟩ → pc.got = some r →
    rt.objects r = some o → rt.Registered o

variable {cfg : RuntimeConfig S Env Op} {rt rt' : Runtime S Env Op} {q r : ℕ}
  {ask : Ask} {pc : AskPc} {o : HostObject S Env Op} {s : Sys S Env Op}

theorem of_keepsClass {admitted : Bool} {c : ClassName} {id : ActorId}
    (h : rt.keepsClass cfg (.start q ask admitted : RuntimeAct Env) = true)
    (ht : ask.target = some (c, id)) (ha : ask.admits admitted = true)
    (hd : rt.destroyed = false) :
    rt.findsClass ask id = true
      ∧ (rt.materializes cfg ask admitted c id = true → rt.storesClass id c = true) := by
  simp only [keepsClass, ht, ha, hd, Option.all_some, Bool.not_true, Bool.false_or,
    Bool.and_eq_true, Bool.or_eq_true, Bool.not_eq_true'] at h
  exact ⟨h.1, fun hm => h.2.resolve_left (by simp [hm])⟩

namespace KeepsRows

theorem of_eq (h : rt'.stores = rt.stores) : rt.KeepsRows rt' :=
  fun id row hr => ⟨row, by rw [h, hr], rfl⟩

theorem registered (h : rt.KeepsRows rt') (hr : rt.Registered o) : rt'.Registered o := by
  obtain ⟨row, hrow, hc⟩ := hr
  obtain ⟨row', hrow', hc'⟩ := h o.id row hrow
  exact ⟨row', hrow', hc'.trans hc⟩

end KeepsRows

namespace Classed

theorem init (stores : ActorId → ActorStore S) :
    (Runtime.init stores : Runtime S Env Op).Classed cfg where
  config r o ho := absurd ho (by simp [Runtime.init])
  code r o ho := absurd ho (by simp [Runtime.init])
  object r o ho := absurd ho (by simp [Runtime.init])
  pending r o ho := absurd ho (by simp [Runtime.init])
  hosts id r o hr := absurd hr (by simp [Runtime.init])
  requests q ask pc r o hq := absurd hq (by simp [Runtime.init])

/-- An object that makes a step of its own, or is registered, keeps the rows. -/
theorem keepsRows_setSys {a : Act Env} (h : rt.Classed cfg) (ho : rt.objects r = some o)
    (hs : (rt.sys o).step o.cfg a = some s) (ha : a.own = true ∨ rt.Registered o) :
    rt.KeepsRows (rt.setSys r o s) := by
  intro id row hrow
  by_cases hid : id = o.id
  · subst hid
    have hself : (rt.setSys r o s).stores o.id = s.store := Function.update_self _ _ _
    rw [hself]
    have hreg : rt.Registered o → ∃ row', s.store.row = some row' ∧ row'.cls = row.cls := by
      rintro ⟨row₀, hrow₀, hc⟩
      obtain rfl := Option.some.inj (hrow.symm.trans hrow₀)
      rcases Sys.row_step hs with he | ⟨version, he⟩
      · exact ⟨row, he.trans hrow, rfl⟩
      · exact ⟨_, he, hc.symm⟩
    rcases h.object r o ho with hr | ⟨hun, hn⟩
    · exact hreg hr
    rcases ha with ha | hr
    · have hsys : (rt.sys o).host.Unregistered := hun
      rcases hsys.of_step hn ha hs with ⟨-, he, -⟩ | ⟨-, hnone, -⟩
      · exact ⟨row, (congrArg ActorStore.row he).trans hrow, rfl⟩
      · exact absurd (hrow.symm.trans hnone) (by simp)
    · exact hreg hr
  · exact ⟨row, by rw [← hrow]; exact congrArg _ (Function.update_of_ne hid _ _), rfl⟩

/-- An object that has been returned by `resolve` is registered. -/
theorem of_outcome (h : rt.Classed cfg) (ho : rt.objects r = some o)
    (hout : o.host.outcome 1 = some (.ok ())) : rt.Registered o := by
  rcases h.object r o ho with hr | ⟨hun, -⟩
  · exact hr
  · have hun : (rt.sys o).host.Unregistered := hun
    exact absurd hout hun.outcome_ne

/-- A request moves, to an object that is registered. -/
theorem setRequest (h : rt.Classed cfg)
    (hpc : ∀ r o, pc.got = some r → rt.objects r = some o → rt.Registered o) :
    (rt.setRequest q ask pc).Classed cfg :=
  { h with
    requests := fun q' ask' pc' r o hq hr ho => by
      by_cases he : q' = q
      · subst he
        obtain ⟨rfl, rfl⟩ :=
          AskTask.mk.inj (Option.some.inj (requests_setRequest_self.symm.trans hq))
        exact hpc r o hr ho
      · exact h.requests q' ask' pc' r o ((requests_setRequest_ne he).symm.trans hq) hr ho }

/-- An object makes a step, of its own or because it has been got. -/
theorem setSys {a : Act Env} (h : rt.Classed cfg) (hrt : rt.Sound)
    (ho : rt.objects r = some o) (hs : (rt.sys o).step o.cfg a = some s)
    (ha : a.own = true ∨ rt.Registered o) : (rt.setSys r o s).Classed cfg := by
  have hkeeps := h.keepsRows_setSys ho hs ha
  have hself : (rt.setSys r o s).stores o.id = s.store := Function.update_self _ _ _
  have hother : ∀ {id}, id ≠ o.id → (rt.setSys r o s).stores id = rt.stores id :=
    fun hid => Function.update_of_ne hid _ _
  -- an object is the one that makes the step, or is as it was
  have hobj : ∀ {P : ℕ → HostObject S Env Op → Prop},
      (∀ r' o', r' ≠ r → rt.objects r' = some o' → P r' o') → P r (o.after s) →
      ∀ r' o', (rt.setSys r o s).objects r' = some o' → P r' o' := by
    intro P hold hnew r' o' ho'
    by_cases he : r' = r
    · subst he
      obtain rfl := Option.some.inj (objects_setSys_self.symm.trans ho')
      exact hnew
    · exact hold r' o' he ((objects_setSys_ne he).symm.trans ho')
  have hregistered : ∀ r' o', (rt.setSys r o s).objects r' = some o' →
      (∀ o₀, rt.objects r' = some o₀ → rt.Registered o₀) →
      (rt.setSys r o s).Registered o' :=
    hobj (fun r' o' _ ho' hr => hkeeps.registered (hr o' ho'))
      (fun hr => hkeeps.registered (o := o) (hr o ho))
  -- who has not been got keeps off the row, or else the object has written it
  have hrest : ∀ r' o', r' ≠ r → rt.objects r' = some o' →
      (o'.host.Unregistered ∧ (o'.host.activating ≠ none → (rt.stores o'.id).row = none)) →
      o'.host.activating ≠ none → ((rt.setSys r o s).stores o'.id).row = none := by
    rintro r' o' hne ho' ⟨hun', hn'⟩ hact
    by_cases hid : o'.id = o.id
    · rw [hid, hself]
      have hnone : (rt.stores o.id).row = none := hid ▸ hn' hact
      have hreg : ¬rt.Registered o := by
        rintro ⟨row, hrow, -⟩
        exact absurd (hrow.symm.trans hnone) (by simp)
      obtain ⟨hun, hn⟩ := (h.object r o ho).resolve_left hreg
      have hsys : (rt.sys o).host.Unregistered := hun
      rcases hsys.of_step hn (ha.resolve_right hreg) hs with ⟨-, he, -⟩ | ⟨hout, -⟩
      · exact (congrArg ActorStore.row he).trans hnone
      · obtain ⟨pc', hpc'⟩ := Option.ne_none_iff_exists'.mp hact
        have hm := h.pending r o ho hout
        have hm' := h.pending r' o' ho' (hun'.begun pc' hpc').2
        rw [hid] at hm'
        exact absurd (Option.some.inj (hm'.symm.trans hm)) hne
    · rw [hother hid]
      exact hn' hact
  exact
    { config := hobj (fun r' o' _ ho' => h.config r' o' ho') (h.config r o ho)
      code := fun r' o' => by
        refine hobj (P := fun _ o' => ((rt.setSys r o s).sys o').RunsCode o'.cfg)
          (fun r' o' _ ho' => ?_) ?_ r' o'
        · exact { h.code r' o' ho' with }
        · have hc := (h.code r o ho).step (hrt.lifecycle r o ho) hs
          exact { hc with }
      object := hobj
        (fun r' o' hne ho' => (h.object r' o' ho').imp hkeeps.registered
          (fun hun => ⟨hun.1, hrest r' o' hne ho' hun⟩))
        (by
          by_cases hreg : rt.Registered o
          · exact .inl (hkeeps.registered (o := o) hreg)
          obtain ⟨hun, hn⟩ := (h.object r o ho).resolve_left hreg
          have hsys : (rt.sys o).host.Unregistered := hun
          rcases hsys.of_step hn (ha.resolve_right hreg) hs with ⟨hun', he, hn'⟩
            | ⟨-, -, version, hrow⟩
          · refine .inr ⟨hun', fun hact => ?_⟩
            exact (congrArg ActorStore.row (hself.trans he)).trans (hn' hact)
          · exact .inl ⟨_, (congrArg ActorStore.row hself).trans hrow, rfl⟩)
      pending := hobj (fun r' o' _ ho' => h.pending r' o' ho') (fun hout => by
        refine h.pending r o ho ?_
        rcases Sys.outcome_step hs with he | ⟨outcome, -, -, -, he⟩
        · exact (congrFun he 1).symm.trans hout
        · have hout : s.host.outcome 1 = none := hout
          rw [he, Function.update_apply] at hout
          split at hout
          · exact absurd hout (by simp)
          · exact hout)
      hosts := fun id r' o' hr' ho' =>
        hregistered r' o' ho' (fun o₀ ho₀ => h.hosts id r' o₀ hr' ho₀)
      requests := fun q ask pc r' o' hq hr' ho' =>
        hregistered r' o' ho' (fun o₀ ho₀ => h.requests q ask pc r' o₀ hq hr' ho₀) }

/-- A host is evicted. -/
theorem evict (h : rt.Classed cfg) (id : ActorId) : (rt.evict id).Classed cfg := by
  have hhosts : ∀ {id' r}, (rt.evict id).hosts id' = some r → rt.hosts id' = some r := by
    intro id' r hr
    unfold Runtime.evict at hr
    split at hr
    · exact hr
    · by_cases he : id' = id
      · exact absurd hr (by simp [he])
      · exact (Function.update_of_ne he _ _).symm.trans hr
  have hreg : ∀ {o}, rt.Registered o → (rt.evict id).Registered o :=
    (KeepsRows.of_eq stores_evict).registered
  exact
    { config := by simpa using h.config
      code := fun r o ho => by
        rw [objects_evict] at ho
        exact { h.code r o ho with }
      object := fun r o ho => by
        rw [objects_evict] at ho
        rw [stores_evict]
        exact (h.object r o ho).imp_left hreg
      pending := by simpa using h.pending
      hosts := fun id' r o hr ho => by
        rw [objects_evict] at ho
        exact hreg (h.hosts id' r o (hhosts hr) ho)
      requests := fun q ask pc r o hq hr ho => by
        rw [requests_evict] at hq
        rw [objects_evict] at ho
        exact hreg (h.requests q ask pc r o hq hr ho) }

/-- Subscriptions are dropped. -/
theorem detachAll (h : rt.Classed cfg) (r : ℕ) : (rt.detachAll r).Classed cfg :=
  { h with
    requests := fun q ask pc r' o hq hr ho => by
      rcases requests_detachAll hq with hq | rfl
      · exact h.requests q ask pc r' o hq hr ho
      · exact absurd hr (by simp [AskPc.got, AskPc.object]) }

/-- What is stored changes, and the rows stay. -/
theorem setStores (h : rt.Classed cfg) {stores : ActorId → ActorStore S}
    (hkeeps : rt.KeepsRows { rt with stores := stores })
    (hnone : ∀ id, (rt.stores id).row = none → (stores id).row = none) :
    Classed cfg { rt with stores := stores } where
  config := h.config
  code r o ho := { h.code r o ho with }
  object r o ho := (h.object r o ho).imp hkeeps.registered
    (fun hun => ⟨hun.1, fun hact => hnone o.id (hun.2 hact)⟩)
  pending := h.pending
  hosts id r o hr ho := hkeeps.registered (h.hosts id r o hr ho)
  requests q ask pc r o hq hr ho := hkeeps.registered (h.requests q ask pc r o hq hr ho)

/-- A host is constructed where there was none, of the class of the row if there
is one. -/
theorem materialize {id : ActorId} {c : ClassName} {registration : Registration S Env}
    (h : rt.Classed cfg) (hrt : rt.Sound) (hm : rt.materializing id = none)
    (hc : cfg.classes c = some registration)
    (hrow : ∀ row, (rt.stores id).row = some row → row.cls = c) :
    (rt.materialize cfg q ask id registration).Classed cfg := by
  have hname : registration.name = c := cfg.classes_name hc
  have hobj : ∀ {P : ℕ → HostObject S Env Op → Prop},
      (∀ r' o', r' ≠ rt.constructed → rt.objects r' = some o' → P r' o') →
      P rt.constructed (.new (cfg.hostConfig id registration) (rt.stores id)) →
      ∀ r' o', (rt.materialize cfg q ask id registration).objects r' = some o' → P r' o' := by
    intro P hold hnew r' o' ho'
    by_cases he : r' = rt.constructed
    · subst he
      obtain rfl := Option.some.inj (objects_materialize_self.symm.trans ho')
      exact hnew
    · exact hold r' o' he ((objects_materialize_ne he).symm.trans ho')
  have hold : ∀ {r' o' o₀}, rt.objects r' = some o₀ →
      (rt.materialize cfg q ask id registration).objects r' = some o' → o₀ = o' := by
    intro r' o' o₀ ho₀ ho'
    rw [objects_materialize_ne (hrt.bound r' o₀ ho₀).ne] at ho'
    exact Option.some.inj (ho₀.symm.trans ho')
  exact
    { config := hobj (fun r' o' _ ho' => h.config r' o' ho')
        ⟨registration, (congrArg cfg.classes hname).trans hc, rfl⟩
      code := fun r' o' => by
        refine hobj (P := fun _ o' => Sys.RunsCode o'.cfg
          ((rt.materialize cfg q ask id registration).sys o'))
          (fun r' o' _ ho' => { h.code r' o' ho' with }) ?_ r' o'
        exact ⟨.inl rfl, fun snap r hr => absurd hr (by
          simp [Runtime.sys, HostObject.new, Sys.activate, Sys.beginActivation, Sys.init,
            Host.init])⟩
      object := hobj (fun r' o' _ ho' => h.object r' o' ho') (by
        cases hr : (rt.stores id).row with
        | none => exact .inr ⟨.new _ _, fun _ => hr⟩
        | some row => exact .inl ⟨row, hr, (hrow row hr).trans hname.symm⟩)
      pending := hobj
        (fun r' o' _ ho' hout => by
          have hm' := h.pending r' o' ho' hout
          have hid : o'.id ≠ id := fun hid => absurd (hid ▸ hm') (by simp [hm])
          exact (Function.update_of_ne hid _ _).trans hm')
        (fun _ => Function.update_self _ _ _)
      hosts := fun id' r' o' hr ho' => by
        obtain ⟨o₀, ho₀, -⟩ := hrt.hosts id' r' hr
        obtain rfl := hold ho₀ ho'
        exact h.hosts id' r' o₀ hr ho₀
      requests := fun q' ask' pc' r' o' hq hr ho' => by
        by_cases he : q' = q
        · subst he
          have he : some (AskTask.mk ask (.creating rt.constructed)) = some ⟨ask', pc'⟩ :=
            requests_setRequest_self.symm.trans hq
          obtain ⟨-, rfl⟩ := AskTask.mk.inj (Option.some.inj he)
          exact absurd hr (by simp [AskPc.got])
        · have hq : rt.requests q' = some ⟨ask', pc'⟩ :=
            (requests_setRequest_ne he).symm.trans hq
          obtain ⟨o₀, ho₀, -⟩ := hrt.requests q' ask' pc' r' hq (AskPc.object_of_got hr)
          obtain rfl := hold ho₀ ho'
          exact h.requests q' ask' pc' r' o₀ hq hr ho₀ }

/-- The request that creates a host is through with it. -/
theorem install {result : Except HostError Unit} (h : rt.Classed cfg) (hrt : rt.Sound)
    (hq : rt.requests q = some ⟨ask, .creating r⟩) (ho : rt.objects r = some o)
    (hout : o.host.outcome 1 = some result) :
    (rt.install q ask r o result).Classed cfg := by
  obtain ⟨hm, -⟩ := hrt.creating q ask r o hq ho
  have hpending : ∀ r' o', rt.objects r' = some o' → o'.host.outcome 1 = none →
      update rt.materializing o.id none o'.id = some r' := by
    intro r' o' ho' hout'
    have hm' := h.pending r' o' ho' hout'
    have hid : o'.id ≠ o.id := by
      intro hid
      obtain rfl := Option.some.inj ((hid ▸ hm').symm.trans hm)
      obtain rfl := Option.some.inj (ho.symm.trans ho')
      exact absurd hout' (by simp [hout])
    exact (Function.update_of_ne hid _ _).trans hm'
  cases result with
  | ok _ =>
    have hreg := h.of_outcome ho hout
    have hcached : Classed cfg { rt.bump o.className with
        hosts := update rt.hosts o.id (some r)
        materializing := update rt.materializing o.id none } :=
      { h with
        pending := hpending
        hosts := fun id r' o' hr ho' => by
          have hr : update rt.hosts o.id (some r) id = some r' := hr
          rw [Function.update_apply] at hr
          split at hr
          · obtain rfl := Option.some.inj hr
            exact Option.some.inj (ho.symm.trans ho') ▸ hreg
          · exact h.hosts id r' o' hr ho' }
    refine hcached.setRequest (fun r' o' hr ho' => ?_)
    obtain rfl := Option.some.inj hr
    exact Option.some.inj (ho.symm.trans ho') ▸ hreg
  | error e =>
    have hover : Classed cfg { rt with materializing := update rt.materializing o.id none } :=
      { h with pending := hpending }
    exact hover.setRequest (fun r' o' hr => absurd hr (by simp [AskPc.got, AskPc.object]))

/-- The hosts in the directory are destroyed, and it forgets them. -/
theorem destroyHosts (h : rt.Classed cfg) (hrt : rt.Sound) (env : Env) :
    Classed cfg { rt with
      objects := fun r =>
        (rt.objects r).map (fun o =>
          if rt.hosts o.id = some r then rt.destroyObject env o else o)
      hosts := fun _ => none
      perClassActive := fun _ => 0 } := by
  have hobj : ∀ {P : ℕ → HostObject S Env Op → Prop},
      (∀ r' o', rt.objects r' = some o' → P r' o') →
      (∀ r' o', rt.objects r' = some o' → rt.Registered o' → P r' (rt.destroyObject env o')) →
      ∀ r' o', (rt.objects r').map (fun o =>
        if rt.hosts o.id = some r' then rt.destroyObject env o else o) = some o' → P r' o' := by
    intro P hold hnew r' o' ho'
    obtain ⟨o₀, ho₀, rfl⟩ := Option.map_eq_some_iff.mp ho'
    split
    · next hh => exact hnew r' o₀ ho₀ (h.hosts o₀.id r' o₀ hh ho₀)
    · exact hold r' o₀ ho₀
  exact
    { config := hobj (fun r' o' ho' => h.config r' o' ho') (fun r' o' ho' _ => h.config r' o' ho')
      code := fun r' o' => by
        refine hobj (P := fun _ o' => (rt.sys o').RunsCode o'.cfg)
          (fun r' o' ho' => h.code r' o' ho') (fun r' o' ho' _ => ?_) r' o'
        have hs : (rt.sys o').step o'.cfg (.destroy env) = some ((rt.sys o').destroy env) := rfl
        have hc := (h.code r' o' ho').step (hrt.lifecycle r' o' ho') hs
        exact { hc with }
      object := hobj (fun r' o' ho' => h.object r' o' ho') (fun r' o' _ hr => .inl hr)
      pending := hobj (fun r' o' ho' => h.pending r' o' ho') (fun r' o' ho' _ hout =>
        h.pending r' o' ho'
          ((congrFun (Sys.promises_destroy (rt.sys o') env).1 1).symm.trans hout))
      hosts := fun id r' o' hr => absurd hr (by simp)
      requests := fun q ask pc r' o' hq hr ho' =>
        hobj (P := fun r' o' => pc.got = some r' → rt.Registered o')
          (fun r' o' ho' hr => h.requests q ask pc r' o' hq hr ho')
          (fun r' o' _ hreg _ => hreg) r' o' ho' hr }

/-- Whom a request has do something is registered, -/
theorem of_serves {x : RuntimeAct Env} {a : Act Env} (h : rt.Classed cfg)
    (ho : rt.objects r = some o) (hserve : Serves cfg rt q r o x ask a pc) :
    rt.Registered o := by
  have hreturned : ∀ {of}, rt.returnedTo of = some r → rt.Registered o := by
    intro of hof
    unfold returnedTo at hof
    split at hof
    · next ask' r' hq => exact h.requests of ask' _ r o hq hof ho
    · exact absurd hof (by simp)
  cases hserve with
  | call hq hp => exact h.requests q _ _ r o hq rfl ho
  | tell hq hp => exact h.requests q _ _ r o hq rfl ho
  | subscribe hq => exact h.requests q _ _ r o hq rfl ho
  | hostCall hn hof => exact hreturned hof
  | hostTell hn hof => exact hreturned hof

/-- and so is whom a request is answered with. -/
theorem of_answers (h : rt.Classed cfg) (ha : Answers cfg rt q ask pc)
    (hr : pc.got = some r) (ho : rt.objects r = some o) : rt.Registered o := by
  cases ha with
  | cached hn ht hd hh => exact h.hosts _ r o (hh.trans hr) ho
  | waited hq ho' hm hout =>
    obtain rfl := Option.some.inj hr
    exact Option.some.inj (ho'.symm.trans ho) ▸ h.of_outcome ho' hout
  | returned hq =>
    obtain rfl := Option.some.inj hr
    exact h.requests q ask _ _ o hq rfl ho
  | _ => exact absurd hr (by simp [AskPc.got, AskPc.object])

/-- **Every step leaves the rows under their classes.** -/
theorem keepsRows {x : RuntimeAct Env} (h : rt.Classed cfg) (hm : Moves cfg rt x rt') :
    rt.KeepsRows rt' := by
  cases hm with
  | serve ho hserve hs => exact h.keepsRows_setSys ho hs (.inr (h.of_serves ho hserve))
  | tombstone hn hh ho hs => exact h.keepsRows_setSys ho hs (.inr (h.hosts _ _ _ hh ho))
  | @tombstoned q id p hq =>
    intro id' row hrow
    show ∃ row', (update rt.stores id _ id').row = some row' ∧ _
    rw [Function.update_apply]
    split
    · next he =>
      subst he
      exact ⟨{ row with tombstoned := true }, by simp [ActorStore.tombstoneActor, hrow], rfl⟩
    · exact ⟨row, hrow, rfl⟩
  | own ho ha hne hs => exact h.keepsRows_setSys ho hs (.inl ha)
  | evict ho hs =>
    have hkeeps := h.keepsRows_setSys ho hs (.inl rfl)
    unfold KeepsRows
    rw [stores_evict]
    exact hkeeps
  | unsubscribe hq ho hs =>
    exact h.keepsRows_setSys ho hs (.inr (h.requests _ _ _ _ _ hq rfl ho))
  | @install q ask ok r o result hq ho hout =>
    refine .of_eq ?_
    cases result <;> rfl
  | _ => exact .of_eq rfl

/-- **Every step that is taken under the condition keeps to it.** -/
theorem step {x : RuntimeAct Env} (h : rt.Classed cfg) (hrt : rt.Sound)
    (hG : rt.keepsClass cfg x = true) (hs : rt.step cfg x = some rt') :
    rt'.Classed cfg := by
  have hm := step_moves hs
  have hkeeps := h.keepsRows hm
  clear hs
  cases hm with
  | answer ha => exact h.setRequest (fun r o hr ho => h.of_answers ha hr ho)
  | materialize hq ht ha hd hh hm hc hcap =>
    refine h.materialize hrt hm hc (fun row hrow => ?_)
    have hstores : rt.storesClass _ _ = true :=
      (of_keepsClass hG ht ha hd).2 (by simp [materializes, ha, hd, hh, hm, hc, hcap])
    simpa [storesClass, hrow] using hstores
  | install hq ho hout => exact h.install hrt hq ho hout
  | @serve x q r ask o a pc s ho hserve hs =>
    have hreg := h.of_serves ho hserve
    refine (h.setSys hrt ho hs (.inr hreg)).setRequest (fun r' o' hr' ho' => ?_)
    obtain rfl :=
      Option.some.inj (hserve.refers.1.symm.trans (AskPc.object_of_got hr'))
    obtain rfl := Option.some.inj (objects_setSys_self.symm.trans ho')
    exact hkeeps.registered (o := o) hreg
  | tombstone hn hh ho hs =>
    exact ((h.setSys hrt ho hs (.inr (h.hosts _ _ _ hh ho))).detachAll _).setRequest
      (fun r o hr => absurd hr (by simp [AskPc.got, AskPc.object]))
  | @tombstoned q id p hq =>
    refine (h.setStores hkeeps (fun id' hnone => ?_)).setRequest
      (fun r o hr => absurd hr (by simp [AskPc.got, AskPc.object]))
    show (update rt.stores id _ id').row = none
    rw [Function.update_apply]
    split
    · next he =>
      subst he
      simp [ActorStore.tombstoneActor, hnone]
    · exact hnone
  | own ho ha hne hs => exact h.setSys hrt ho hs (.inl ha)
  | evict ho hs => exact (h.setSys hrt ho hs (.inl rfl)).evict _
  | unsubscribe hq ho hs =>
    exact (h.setSys hrt ho hs (.inr (h.requests _ _ _ _ _ hq rfl ho))).setRequest
      (fun r o hr => absurd hr (by simp [AskPc.got, AskPc.object]))
  | shutdown => exact { h with }
  | destroyHosts hd => exact h.destroyHosts hrt _

/-- By itself, a host of another class than that of the row does nothing. -/
theorem hostAct_eq {a : Act Env} (h : rt.Classed cfg) (ho : rt.objects r = some o)
    (hreg : ¬rt.Registered o) (hact : o.host.activating = none)
    (hs : rt.hostAct r a = some rt') : rt' = rt := by
  have hun : (rt.sys o).host.Unregistered := ((h.object r o ho).resolve_left hreg).1
  have hnone : (rt.sys o).host.activating = none := hact
  -- it is left with a deactivation that finds nothing to do
  have hstep : ∀ {s}, a.own = true → (rt.sys o).step o.cfg a = some s →
      rt.setSys r o s = rt := by
    intro s ha hs
    rcases hun.of_own ha hs with rfl | ⟨env, ok, rfl⟩
    · have hobj : update rt.objects r (some o) = rt.objects :=
        Function.update_eq_self_iff.mpr ho.symm
      have hst : update rt.stores o.id (rt.stores o.id) = rt.stores :=
        Function.update_eq_self _ _
      show { rt with
        objects := update rt.objects r (some o)
        stores := update rt.stores o.id (rt.stores o.id) } = rt
      rw [hobj, hst]
    · rw [Sys.step, Sys.actStep, hnone] at hs
      exact absurd hs (by simp)
  rw [hostAct, ho] at hs
  dsimp only at hs
  split at hs
  · obtain ⟨o', s, ho', hs', -⟩ := hostStep_map hs
    obtain rfl := Option.some.inj (ho.symm.trans ho')
    rw [Sys.step] at hs'
    exact absurd hs' (by simp [hun.idleEvicts])
  · split at hs
    · next ha =>
      obtain ⟨o', s, ho', hs', rfl⟩ := hostStep_eq hs
      obtain rfl := Option.some.inj (ho.symm.trans ho')
      exact hstep ha hs'
    · exact absurd hs (by simp)

/-- **A host of another class than that of the row does nothing**: its activation is
over, and nobody has got it. -/
theorem inert {row : ActorRow} (h : rt.Classed cfg) (hrt : rt.Sound)
    (ho : rt.objects r = some o) (hrow : (rt.stores o.id).row = some row)
    (hc : row.cls ≠ o.className) : rt.Inert cfg r := by
  have hreg : ¬rt.Registered o := by
    rintro ⟨row', hrow', hc'⟩
    exact hc (Option.some.inj (hrow.symm.trans hrow') ▸ hc')
  have hact : o.host.activating = none := by
    by_contra hne
    exact absurd (hrow.symm.trans (((h.object r o ho).resolve_left hreg).2 hne)) (by simp)
  have hself : ∀ {a rt'}, rt.hostAct r a = some rt' → rt' = rt :=
    fun hs => h.hostAct_eq ho hreg hact hs
  -- who does something is another one
  have hother : ∀ {r₁ : ℕ} {o₁ : HostObject S Env Op} {s : Sys S Env Op},
      rt.objects r₁ = some o₁ → rt.Registered o₁ →
      (rt.setSys r₁ o₁ s).objects r = rt.objects r := by
    intro r₁ o₁ s ho₁ hr₁
    refine objects_setSys_ne ?_
    rintro rfl
    exact hreg (Option.some.inj (ho₁.symm.trans ho) ▸ hr₁)
  intro x rt' hs
  by_cases hx : ∃ a, x = .host r a
  · obtain ⟨a, rfl⟩ := hx
    obtain rfl := hself hs
    exact ⟨rfl, fun _ _ => rfl⟩
  refine ⟨?_, fun a he => absurd ⟨a, he⟩ hx⟩
  have hm := step_moves hs
  clear hs
  cases hm with
  | answer ha => rfl
  | materialize => exact objects_materialize_ne (hrt.bound r o ho).ne
  | install hq ho₁ hout => rw [objects_install]
  | serve ho₁ hserve hs => exact hother ho₁ (h.of_serves ho₁ hserve)
  | tombstone hn hh ho₁ hs => exact hother ho₁ (h.hosts _ _ _ hh ho₁)
  | tombstoned hq => rfl
  | @own r₁ o₁ a s ho₁ ha hne hs =>
    refine objects_setSys_ne ?_
    rintro rfl
    exact hx ⟨a, rfl⟩
  | @evict r₁ o₁ s ho₁ hs =>
    rw [objects_evict]
    refine objects_setSys_ne ?_
    rintro rfl
    exact hx ⟨_, rfl⟩
  | unsubscribe hq ho₁ hs => exact hother ho₁ (h.requests _ _ _ _ _ hq rfl ho₁)
  | shutdown => rfl
  | destroyHosts hd =>
    dsimp only
    rw [ho, Option.map_some, if_neg]
    exact fun hh => hreg (h.hosts _ r o hh ho)

end Classed

/-! ## The requests that are made

A request keeps the class it was made with, and goes on with the object that
it was resolved to. -/

/-- The step moves request `q`, and makes no other. -/
structure MovesRequest (rt rt' : Runtime S Env Op) (q : ℕ) (ask : Ask) : Prop where
  moved : ∃ pc, rt'.requests q = some ⟨ask, pc⟩
  others : ∀ q', q' ≠ q → rt.requests q' = none → rt'.requests q' = none

theorem MovesRequest.of_setRequest {t : Runtime S Env Op}
    (ht : ∀ q', rt.requests q' = none → t.requests q' = none) :
    MovesRequest rt (t.setRequest q ask pc) q ask where
  moved := ⟨pc, requests_setRequest_self⟩
  others q' he hn := (requests_setRequest_ne he).trans (ht q' hn)

/-- Its host does something for it. -/
theorem MovesRequest.of_hostStep {a : Act Env}
    (h : (rt.hostStep r a).map (fun rt => rt.setRequest q ask pc) = some rt') :
    MovesRequest rt rt' q ask := by
  obtain ⟨o, s, -, -, rfl⟩ := hostStep_map h
  exact .of_setRequest (fun q' hn => hn)

theorem resolve_movesRequest (cfg : RuntimeConfig S Env Op) (rt : Runtime S Env Op) (q : ℕ)
    (ask : Ask) (c : ClassName) (id : ActorId) :
    MovesRequest rt (rt.resolve cfg q ask c id) q ask := by
  unfold resolve
  split
  · exact .of_setRequest (fun q' hn => hn)
  split
  · exact .of_setRequest (fun q' hn => hn)
  split
  · exact .of_setRequest (fun q' hn => hn)
  split
  · exact .of_setRequest (fun q' hn => hn)
  split
  · exact .of_setRequest (fun q' hn => hn)
  · exact .of_setRequest (fun q' hn => hn)

theorem tombstone_movesRequest {id : ActorId} {p : Principal}
    (h : rt.tombstone cfg q id p = some rt') :
    MovesRequest rt rt' q (.tombstone id p) := by
  unfold Runtime.tombstone at h
  dsimp only at h
  split at h
  · exact Option.some.inj h ▸ .of_setRequest (fun q' hn => hn)
  split at h
  · exact absurd h (by simp)
  unfold permitted at h
  split at h
  · obtain ⟨o, s, -, -, rfl⟩ := hostStep_map h
    refine .of_setRequest (fun q' hn => ?_)
    simp only [detachAll, requests_setSys, hn]
  · exact Option.some.inj h ▸ .of_setRequest (fun q' hn => hn)

/-- A request that is made is the one that the step says, -/
theorem start_movesRequest {admitted : Bool} (h : rt.start cfg q ask admitted = some rt') :
    MovesRequest rt rt' q ask := by
  unfold start at h
  split at h
  · exact absurd h (by simp)
  cases ask with
  | call c id method args p =>
    dsimp only at h
    split at h <;> obtain rfl := Option.some.inj h
    · exact resolve_movesRequest cfg rt q _ c id
    · exact .of_setRequest (fun q' hn => hn)
  | tell c id type payload p => exact Option.some.inj h ▸ resolve_movesRequest cfg rt q _ c id
  | checkRead c id p => exact Option.some.inj h ▸ resolve_movesRequest cfg rt q _ c id
  | getHost c id => exact Option.some.inj h ▸ resolve_movesRequest cfg rt q _ c id
  | subscribe c id => exact Option.some.inj h ▸ resolve_movesRequest cfg rt q _ c id
  | tombstone id p => exact tombstone_movesRequest h
  | hostCall of method args =>
    dsimp only at h
    split at h
    · exact absurd h (by simp)
    · exact .of_hostStep h
  | hostTell of type payload =>
    dsimp only at h
    split at h
    · exact absurd h (by simp)
    · exact .of_hostStep h

theorem serve_movesRequest (h : rt.serve cfg q r o ask = some rt') :
    MovesRequest rt rt' q ask := by
  cases ask with
  | call c id method args p =>
    simp only [serve, permitted] at h
    split at h
    · exact .of_hostStep h
    · exact Option.some.inj h ▸ .of_setRequest (fun q' hn => hn)
  | tell c id type payload p =>
    simp only [serve, permitted] at h
    split at h
    · exact .of_hostStep h
    · exact Option.some.inj h ▸ .of_setRequest (fun q' hn => hn)
  | checkRead c id p =>
    simp only [serve, permitted] at h
    split at h <;> exact Option.some.inj h ▸ .of_setRequest (fun q' hn => hn)
  | getHost c id => exact Option.some.inj h ▸ .of_setRequest (fun q' hn => hn)
  | subscribe c id => exact .of_hostStep h
  | _ => exact absurd h (by simp [serve])

/-- and one that goes on was there. -/
theorem resume_movesRequest {ok : Bool} (h : rt.resume cfg q ok = some rt') :
    rt.requests q ≠ none ∧ ∃ ask, MovesRequest rt rt' q ask := by
  unfold resume at h
  split at h
  · next ask r hq =>
    refine ⟨by simp [hq], ask, ?_⟩
    split at h
    · exact absurd h (by simp)
    · obtain ⟨result, -, rfl⟩ := Option.map_eq_some_iff.mp h
      cases result <;> exact .of_setRequest (fun q' hn => hn)
  · next ask r hq =>
    refine ⟨by simp [hq], ask, ?_⟩
    split at h
    · exact absurd h (by simp)
    split at h
    · exact absurd h (by simp)
    split at h
    · exact absurd h (by simp)
    · exact Option.some.inj h ▸ .of_setRequest (fun q' hn => hn)
    · exact Option.some.inj h ▸ .of_setRequest (fun q' hn => hn)
  · next ask r hq =>
    refine ⟨by simp [hq], ask, ?_⟩
    split at h
    · exact absurd h (by simp)
    · exact serve_movesRequest h
  · next id p hq =>
    refine ⟨by simp [hq], .tombstone id p, ?_⟩
    split at h <;> exact Option.some.inj h ▸ .of_setRequest (fun q' hn => hn)
  · exact absurd h (by simp)

theorem requests_hostStep {a : Act Env} (h : rt.hostStep r a = some rt') :
    rt'.requests = rt.requests := by
  obtain ⟨o, s, -, -, rfl⟩ := hostStep_eq h
  rfl

theorem requests_hostAct {a : Act Env} (h : rt.hostAct r a = some rt') :
    rt'.requests = rt.requests := by
  unfold hostAct at h
  split at h
  · exact absurd h (by simp)
  split at h
  · obtain ⟨t, ht, rfl⟩ := Option.map_eq_some_iff.mp h
    exact requests_evict.trans (requests_hostStep ht)
  · split at h
    · exact requests_hostStep h
    · exact absurd h (by simp)

/-- **Which step has made a request.** -/
theorem made {x : RuntimeAct Env} (hs : rt.step cfg x = some rt')
    (hn : rt.requests q = none) (hq : rt'.requests q = some ⟨ask, pc⟩) :
    ∃ admitted, x = .start q ask admitted := by
  have hnot : ∀ {P : Prop}, rt'.requests = rt.requests → P :=
    fun he => absurd (hq.symm.trans (he ▸ hn)) (by simp)
  -- the request that the step moves is this one
  have hself : ∀ {q' : ℕ} {ask' : Ask}, MovesRequest rt rt' q' ask' → q' = q ∧ ask' = ask := by
    intro q' ask' hm
    by_cases he : q = q'
    · subst he
      obtain ⟨pc', hq'⟩ := hm.moved
      exact ⟨rfl, (AskTask.mk.inj (Option.some.inj (hq'.symm.trans hq))).1⟩
    · exact absurd (hq.symm.trans (hm.others q he hn)) (by simp)
  cases x with
  | start q' ask' admitted =>
    obtain ⟨rfl, rfl⟩ := hself (start_movesRequest hs)
    exact ⟨admitted, rfl⟩
  | resume q' ok =>
    obtain ⟨hne, ask', hm⟩ := resume_movesRequest hs
    obtain ⟨rfl, -⟩ := hself hm
    exact absurd hn hne
  | host r a => exact hnot (requests_hostAct hs)
  | unsubscribe q' =>
    rw [step, Runtime.unsubscribe] at hs
    split at hs
    · next ask' r hq' =>
      obtain ⟨rfl, -⟩ := hself (.of_hostStep hs)
      exact absurd (hq'.symm.trans hn) (by simp)
    · exact absurd hs (by simp)
  | shutdown => exact hnot (Option.some.inj hs ▸ rfl)
  | destroyHosts env =>
    rw [step, Runtime.destroyHosts] at hs
    split at hs
    · exact hnot (Option.some.inj hs ▸ rfl)
    · exact absurd hs (by simp)

/-- What `resolve` gives a request is what it finds, or is of the class it is
called with. -/
theorem resolve_object {c : ClassName} {id : ActorId}
    (hq : (rt.resolve cfg q ask c id).requests q = some ⟨ask, pc⟩)
    (hr : pc.object = some r) (ho : (rt.resolve cfg q ask c id).objects r = some o) :
    rt.destroyed = false ∧ ((rt.found id).bind rt.objects = some o ∨ o.className = c) := by
  have hpc : ∀ {t : Runtime S Env Op} {pc' : AskPc},
      (t.setRequest q ask pc').requests q = some ⟨ask, pc⟩ → pc'.object = some r := by
    intro t pc' he
    rw [requests_setRequest_self] at he
    exact (AskTask.mk.inj (Option.some.inj he)).2 ▸ hr
  revert hq ho
  unfold resolve
  split
  · exact fun hq => absurd (hpc hq) (by simp [AskPc.object])
  next hd =>
  have hd : rt.destroyed = false := by simpa using hd
  split
  · next r' hh =>
    intro hq ho
    obtain rfl := Option.some.inj (hpc hq)
    exact ⟨hd, .inl (by rw [found, hh]; exact ho)⟩
  next hh =>
  split
  · next r' hm =>
    intro hq ho
    obtain rfl := Option.some.inj (hpc hq)
    exact ⟨hd, .inl (by rw [found, hh, hm]; exact ho)⟩
  split
  · exact fun hq => absurd (hpc hq) (by simp [AskPc.object])
  next registration hc =>
  split
  · exact fun hq => absurd (hpc hq) (by simp [AskPc.object])
  · intro hq ho
    obtain rfl := Option.some.inj (hpc hq)
    obtain rfl := Option.some.inj (objects_materialize_self.symm.trans ho)
    exact ⟨hd, .inr (cfg.classes_name hc)⟩

/-- **A message or a read is with a host of the class it names**, unless it is one
of the system. -/
def Suits (rt : Runtime S Env Op) : Prop :=
  ∀ q ask pc r o c, rt.requests q = some ⟨ask, pc⟩ → pc.object = some r →
    rt.objects r = some o → ask.named = some c → o.className = c

namespace Suits

theorem init (stores : ActorId → ActorStore S) :
    (Runtime.init stores : Runtime S Env Op).Suits :=
  fun q ask pc r o c hq => absurd hq (by simp [Runtime.init])

/-- A request that is made suits the host it finds. -/
theorem of_start {admitted : Bool} {c : ClassName}
    (hG : rt.keepsClass cfg (.start q ask admitted : RuntimeAct Env) = true)
    (hs : rt.start cfg q ask admitted = some rt') (hc : ask.named = some c)
    (hq : rt'.requests q = some ⟨ask, pc⟩) (hr : pc.object = some r)
    (ho : rt'.objects r = some o) : o.className = c := by
  obtain ⟨id, ht⟩ := Ask.target_of_named hc
  have hresolve : ask.admits admitted = true → rt' = rt.resolve cfg q ask c id →
      o.className = c := by
    rintro ha rfl
    obtain ⟨hd, hfound | he⟩ := resolve_object hq hr ho
    · have hfinds : rt.findsClass ask id = true := (of_keepsClass hG ht ha hd).1
      have he : c = o.className := by simpa [findsClass, hfound, hc] using hfinds
      exact he.symm
    · exact he
  unfold start at hs
  split at hs
  · exact absurd hs (by simp)
  cases ask with
  | call c' id' method args p =>
    obtain ⟨rfl, rfl⟩ := Prod.mk.inj (Option.some.inj ht)
    dsimp only at hs
    split at hs
    · next ha => exact hresolve ha (Option.some.inj hs).symm
    · obtain rfl := Option.some.inj hs
      rw [requests_setRequest_self] at hq
      obtain rfl := (AskTask.mk.inj (Option.some.inj hq)).2
      exact absurd hr (by simp [AskPc.object])
  | tell c' id' type payload p =>
    obtain ⟨rfl, rfl⟩ := Prod.mk.inj (Option.some.inj ht)
    exact hresolve rfl (Option.some.inj hs).symm
  | checkRead c' id' p =>
    obtain ⟨rfl, rfl⟩ := Prod.mk.inj (Option.some.inj ht)
    exact hresolve rfl (Option.some.inj hs).symm
  | subscribe c' id' =>
    obtain ⟨rfl, rfl⟩ := Prod.mk.inj (Option.some.inj ht)
    exact hresolve rfl (Option.some.inj hs).symm
  | _ => exact absurd hc (by simp [Ask.named])

/-- **Every step that is taken under the condition keeps to it.** -/
theorem step {x : RuntimeAct Env} (h : rt.Suits) (hrt : rt.Sound)
    (hG : rt.keepsClass cfg x = true) (hs : rt.step cfg x = some rt') : rt'.Suits := by
  intro q ask pc r o c hq hr ho hc
  cases hq₀ : rt.requests q with
  | none =>
    obtain ⟨admitted, rfl⟩ := made hs hq₀ hq
    exact of_start hG hs hc hq hr ho
  | some task =>
    obtain ⟨ask₀, pc₀⟩ := task
    have hm := step_moves hs
    obtain ⟨pc', hq'⟩ := hm.asked hq₀
    obtain ⟨rfl, rfl⟩ := AskTask.mk.inj (Option.some.inj (hq'.symm.trans hq))
    have hrefers : ∀ r', (∀ r'', pc₀.object = some r'' → r'' = r') → r = r' := by
      intro r' hr'
      obtain ⟨ask₁, pc₁, hq₁, hr₁⟩ := hm.refers ⟨ask₀, pc₀, hq₀, hr'⟩
      obtain ⟨rfl, rfl⟩ := AskTask.mk.inj (Option.some.inj (hq₁.symm.trans hq))
      exact hr₁ r hr
    cases hr₀ : pc₀.object with
    | none =>
      have he := hrefers (r + 1) (by simp [hr₀])
      omega
    | some r' =>
      obtain rfl := hrefers r' (fun r'' he => Option.some.inj (he.symm.trans hr₀))
      obtain ⟨o₀, ho₀, -⟩ := hrt.requests q ask₀ pc₀ r hq₀ hr₀
      obtain ⟨o₁, ho₁, hcfg⟩ := hm.object_kept (hrt.bound r o₀ ho₀) ho₀
      obtain rfl := Option.some.inj (ho₁.symm.trans ho)
      have hname : o₁.className = o₀.className :=
        congrArg (fun k : HostConfig S Env Op => k.registration.name) hcfg
      exact hname.trans (h q ask₀ pc₀ r o₀ c hq₀ hr₀ ho₀ hc)

end Suits

/-- **No class confusion.** If every request that is made keeps to the class of its
actor, then in every state no class is confused with another. -/
theorem one_class (cfg : RuntimeConfig S Env Op) (stores : ActorId → ActorStore S)
    {xs : List (RuntimeAct Env)} {rt : Runtime S Env Op}
    (hrun : TransitionSystem.run (step cfg) (init stores) xs = some rt)
    (hG : TransitionSystem.Along (step cfg) (fun rt x => rt.keepsClass cfg x = true)
      (init stores) xs) : rt.Unconfused cfg := by
  obtain ⟨hrt, hclassed, hsuits⟩ := TransitionSystem.run_invariant (step cfg)
    (P := fun rt => rt.Sound ∧ rt.Classed cfg ∧ rt.Suits)
    (fun _ _ _ h hG hs => ⟨h.1.step hs, h.2.1.step h.1 hG hs, h.2.2.step h.1 hG hs⟩)
    ⟨.init stores, .init stores, .init stores⟩ hG hrun
  exact
    { named := hsuits
      code := fun r o ho => by
        obtain ⟨registration, hc, hcfg⟩ := hclassed.config r o ho
        exact ⟨registration, hc, hcfg, (hclassed.code r o ho).cls⟩
      stored := fun r o row ho hrow hc => hclassed.inert hrt ho hrow hc
      rows := fun x rt' hs => hclassed.keepsRows (step_moves hs) }

/-! ### A counter that is called as something else -/

/-- Beside the counter, which takes an admin to call, there is a class that anybody
may call. Its `inc` doubles. -/
def twoClasses : RuntimeConfig ℕ Bool ℕ :=
  { Counter.runtime with
    classes := fun c =>
      if c = "Counter" then some Counter.cfg.registration
      else if c = "Doubler" then
        some { Counter.cfg.registration with
          name := "Doubler"
          ctor := { Counter.cls with
            handlers := fun name =>
              if name = "inc" then some (fun _ n _ => .ret (.mutate (n + n)) .null)
              else none } }
      else none
    classes_name := by
      intro c reg h
      split at h
      · next hc => exact Option.some.inj h ▸ hc.symm
      split at h
      · next hc => exact Option.some.inj h ▸ hc.symm
      · exact absurd h (by simp)
    policy := fun c =>
      if c = "Counter" then some (fun p _ => .ok (.decided (p.sub == "admin") none))
      else none }

def guest : Principal := ⟨"guest", some [], none, none, none⟩

/-- The counter is called by an admin, as itself. -/
def calledAsItself : List (RuntimeAct Bool) :=
  handedOut ++ [.start 1 (.call "Counter" "counter-1" "inc" .null Counter.admin) true,
    .resume 1 true] ++ Counter.hostWorking 0 1 2

/-- The theorem applies to the counter that is called as itself, and counts. -/
theorem one_class_calledAsItself :
    ∃ rt : Runtime ℕ Bool ℕ,
      TransitionSystem.run (step twoClasses) (init (Counter.stored 5)) calledAsItself
        = some rt
      ∧ ((rt.objects 0).map fun o => o.host.state) = some 6
      ∧ rt.Unconfused twoClasses := by
  have hrun : (TransitionSystem.run (step twoClasses) (init (Counter.stored 5))
      calledAsItself).any (fun rt =>
        ((rt.objects 0).map fun o => o.host.state) == some 6) = true := by decide
  obtain ⟨rt, hrt, h⟩ := (Option.any_eq_true _ _).mp hrun
  exact ⟨rt, hrt, beq_iff_eq.mp h, one_class twoClasses (Counter.stored 5) hrt (by decide)⟩

/-- A guest, whom the counter would refuse, calls it as the other class. -/
def calledAsAnother : List (RuntimeAct Bool) :=
  handedOut ++ [.start 1 (.call "Doubler" "counter-1" "inc" .null guest) true,
    .resume 1 true] ++ Counter.hostWorking 0 1 2

/-- The guest has it activated as the other class, up to the last segment. -/
def begunAsAnother : List (RuntimeAct Bool) :=
  .start 0 (.call "Doubler" "counter-1" "inc" .null guest) true
    :: Counter.hostActivating 0 3

/-- **The counter counts for a guest who has called it as the other class**, and is
activated as the other class if the guest is the first to call it. -/
theorem not_one_class :
    (¬∀ rt : Runtime ℕ Bool ℕ,
        TransitionSystem.run (step twoClasses) (init (Counter.stored 5)) calledAsAnother
          = some rt → rt.Unconfused twoClasses)
      ∧ ¬∀ rt : Runtime ℕ Bool ℕ,
        TransitionSystem.run (step twoClasses) (init (Counter.stored 5)) begunAsAnother
          = some rt → rt.Unconfused twoClasses := by
  constructor
  · intro h
    have hrun : (TransitionSystem.run (step twoClasses) (init (Counter.stored 5))
        calledAsAnother).any (fun rt =>
          (rt.requests 1).any (fun task =>
            task.pc.object == some 0 && task.ask.named == some "Doubler")
          && (rt.objects 0).any (fun o => o.className == "Counter")) = true := by decide
    obtain ⟨rt, hrt, h'⟩ := (Option.any_eq_true _ _).mp hrun
    obtain ⟨hq, ho⟩ := Bool.and_eq_true_iff.mp h'
    obtain ⟨⟨ask, pc⟩, hq, ht⟩ := (Option.any_eq_true _ _).mp hq
    obtain ⟨hr, hc⟩ := Bool.and_eq_true_iff.mp ht
    obtain ⟨o, ho, hname⟩ := (Option.any_eq_true _ _).mp ho
    have he := (h rt hrt).named 1 ask pc 0 o "Doubler" hq (beq_iff_eq.mp hr) ho
      (beq_iff_eq.mp hc)
    exact absurd ((beq_iff_eq.mp hname).symm.trans he) (by decide)
  · intro h
    have hrun : (TransitionSystem.run (step twoClasses) (init (Counter.stored 5))
        begunAsAnother).any (fun rt =>
          (rt.objects 0).any (fun o => !o.host.activated
            && (rt.stores o.id).row.any (fun row => row.cls != o.className))
          && (rt.step twoClasses (.host 0 (.activation true true))).any (fun rt' =>
            (rt'.objects 0).any (fun o => o.host.activated))) = true := by decide
    obtain ⟨rt, hrt, h'⟩ := (Option.any_eq_true _ _).mp hrun
    obtain ⟨ho, hs⟩ := Bool.and_eq_true_iff.mp h'
    obtain ⟨o, ho, hrow⟩ := (Option.any_eq_true _ _).mp ho
    obtain ⟨hact, hrow⟩ := Bool.and_eq_true_iff.mp hrow
    obtain ⟨row, hrow, hne⟩ := (Option.any_eq_true _ _).mp hrow
    obtain ⟨rt', hs, ho'⟩ := (Option.any_eq_true _ _).mp hs
    obtain ⟨o', ho', hact'⟩ := (Option.any_eq_true _ _).mp ho'
    have hinert := ((h rt hrt).stored 0 o row ho hrow (by simpa using hne) _ rt' hs).1
    obtain rfl := Option.some.inj (ho'.symm.trans (hinert.trans ho))
    exact absurd hact (by simp [hact'])

end Runtime
