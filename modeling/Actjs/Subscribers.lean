import Actjs.SnapshotSteps

/-!
# Subscribers converge

A subscriber is sent the state when it attaches, and after each turn of a
state-with-messages actor a patch from the state that turn began with to the
state it ended with. `Converging` relates the copy of each subscriber to the
actor: during a turn it is the state the turn began with, between two turns
it is the state.

The patch is emitted at the very end of a commit, and only by a turn that
began with somebody listening. So a turn that fails after a mutation leaves
every copy behind, and a subscriber that attaches during a turn gets a state
that the patch of that turn is not about. The theorem is about the runs in
which neither happens, nor an activation or a hook that changes the state
under an attached subscriber.
-/

open Function (update)

/-! ## The client

What a client makes of the notifications it is sent: a snapshot replaces its
copy, a patch is applied to it. -/

/-- A `SubscriptionRecord` of the client. -/
structure SubscriptionRecord (S : Type) where
  state : Option S
  tombstoned : Bool

variable {S Env Op : Type}

/-- `SubscriptionState.apply`, of a subscription without a reducer. -/
def SubscriptionRecord.apply (applyOp : S → Op → S)
    (rec : SubscriptionRecord S) (n : Notification S Op) :
    SubscriptionRecord S :=
  if rec.tombstoned = true then rec
  else
    match n with
    | .snapshot data _ => { rec with state := data }
    | .patch ops =>
      { rec with state := rec.state.map (fun x => ops.foldl applyOp x) }
    | .event _ _ => rec
    | .tombstone => { rec with tombstoned := true }

/-- What `preRegister` makes. -/
def SubscriptionRecord.new : SubscriptionRecord S := ⟨none, false⟩

/-- The record of subscriber `l`, once it has applied what it was sent. -/
def Sys.client (applyOp : S → Op → S) (s : Sys S Env Op) (l : ℕ) :
    SubscriptionRecord S :=
  (s.hist.notifs l).foldl (SubscriptionRecord.apply applyOp) .new

/-- Subscriber `l` shows `x`. -/
def Sys.Shows (applyOp : S → Op → S) (s : Sys S Env Op) (l : ℕ) (x : S) :
    Prop :=
  s.client applyOp l = ⟨some x, false⟩

/-! ## Turns

A worker captures the state when it takes an item and somebody listens, and
the patch it sends is from that state to the one at its commit. -/

/-- Where a worker is in the turn of a state-with-messages actor. -/
inductive TurnStage where
  | outside
  /-- The handler is at an await. -/
  | running
  /-- The handler has ended, and the patch is not emitted. -/
  | ended
  /-- In the commit of an event-sourced actor. -/
  | es
deriving DecidableEq

def WorkerPc.turnStage : WorkerPc S → TurnStage
  | running _ _ => .running
  | returned _ _ => .ended
  | acking _ _ .swm => .ended
  | acking _ _ _ => .es
  | appending _ _ _ => .es
  | appended _ _ _ => .es
  | flushing _ _ => .es
  | _ => .outside

/-- No turn begins with the dequeueing of its item. -/
@[simp] theorem turnStage_dequeuedPc (d : DequeueResult Item) :
    (Sys.dequeuedPc d : WorkerPc S).turnStage = .outside := by
  cases d <;> rfl

/-- The next segment leaves the state alone. -/
def Change.isKeep : Change S → Bool
  | keep => true
  | _ => false

/-- The next segment may install a state, or run a hook. -/
def ActPc.installs : ActPc S Env → Bool
  | loadSnapshot => false
  | resolveCtor _ => false
  | retain _ _ => false
  | migrateFlush _ => false
  | readInbox => false
  | replayInbox _ => false
  | finishing _ => false
  | _ => true

/-- The class is not event-sourced, whichever version of it runs. -/
structure HostConfig.Swm (cfg : HostConfig S Env Op) : Prop where
  ctor : cfg.registration.ctor.isEs = false
  load : ∀ load name v c, cfg.loader = some load → load name v = .ok c →
    c.isEs = false

/-- `resolveCtor` decides for the class registered, or for one loaded. -/
theorem HostConfig.resolveCtor_ctor {cfg : HostConfig S Env Op}
    {persisted : Option Version} {ok : Bool} {r : Resolved S Env}
    (hr : cfg.resolveCtor persisted ok = .ok r) :
    r.ctor = cfg.registration.ctor
      ∨ ∃ load v, cfg.loader = some load
        ∧ load cfg.registration.name v = .ok r.ctor := by
  unfold HostConfig.resolveCtor at hr
  dsimp only at hr
  cases persisted with
  | none =>
    obtain rfl := Except.ok.inj hr
    exact .inl rfl
  | some p =>
    dsimp only at hr
    split at hr
    · obtain rfl := Except.ok.inj hr
      exact .inl rfl
    split at hr
    · exact absurd hr (by simp)
    split at hr
    · obtain rfl := Except.ok.inj hr
      exact .inl rfl
    split at hr
    · exact absurd hr (by simp)
    · next load hload =>
      split at hr
      · cases hc : load cfg.registration.name p with
        | error e => rw [hc] at hr; exact absurd hr (by simp [Except.map])
        | ok c =>
          rw [hc] at hr
          obtain rfl := Except.ok.inj hr
          exact .inr ⟨load, _, hload, hc⟩
      · exact absurd hr (by simp)

/-- `resolveCtor` decides for a class that is not event-sourced. -/
theorem HostConfig.Swm.resolveCtor {cfg : HostConfig S Env Op} (h : cfg.Swm)
    {persisted : Option Version} {ok : Bool} {r : Resolved S Env}
    (hr : cfg.resolveCtor persisted ok = .ok r) : r.ctor.isEs = false := by
  rcases HostConfig.resolveCtor_ctor hr with hc | ⟨load, v, hload, hc⟩
  · rw [hc]
    exact h.ctor
  · exact h.load load _ v _ hload hc

/-! ## The invariant

The copy of a subscriber is the captured state during a turn, and the state
between two turns. -/

/-- **What keeps the copies of the subscribers.** A copy is not always the
state: during a turn it lags by what the turn does, and the patch at the end
of the turn is what brings it up. -/
structure Converging (applyOp : S → Op → S) (s : Sys S Env Op) : Prop where
  cls : s.host.cls.isEs = false
  resolved : ∀ snap r, s.host.activating = some (.loadFence snap r) →
    r.ctor.isEs = false
  swm : ∀ g, (s.host.workers g).turnStage ≠ .es
  /-- During a turn, a subscriber shows the state the turn began with. -/
  mid : ∀ g, (s.host.workers g).turnStage ≠ .outside →
    ∀ l ∈ s.host.commitListeners,
      s.Shows applyOp l (s.host.prevStateCapture.getD s.host.state)
  /-- With somebody listening, a turn has captured the state it began with. -/
  captured : ∀ g, (s.host.workers g).turnStage = .running →
    s.host.commitListeners ≠ [] → s.host.prevStateCapture ≠ none
  /-- Between two turns, it shows the state. -/
  rest : (∀ g, (s.host.workers g).turnStage = .outside) →
    ∀ l ∈ s.host.commitListeners, s.Shows applyOp l s.host.state

namespace Converging

variable {applyOp : S → Op → S} {cfg : HostConfig S Env Op}
  {s s' : Sys S Env Op} {g : ℕ}

/-- A step that leaves alone the state, the capture and what was sent, and
attaches nobody. -/
theorem frame (h : Converging applyOp s)
    (hstate : s'.host.state = s.host.state)
    (hcls : s'.host.cls = s.host.cls)
    (hcap : s'.host.prevStateCapture = s.host.prevStateCapture)
    (hlis : s'.host.commitListeners ⊆ s.host.commitListeners)
    (hnot : s'.hist.notifs = s.hist.notifs)
    (hw : ∀ g, (s'.host.workers g).turnStage = (s.host.workers g).turnStage)
    (hact : ∀ snap r, s'.host.activating = some (.loadFence snap r) →
      s.host.activating = some (.loadFence snap r)) : Converging applyOp s' := by
  have hshows : ∀ l x, s'.Shows applyOp l x ↔ s.Shows applyOp l x := by
    intro l x
    unfold Sys.Shows Sys.client
    rw [hnot]
  refine ⟨by rw [hcls]; exact h.cls, fun snap r hr => h.resolved snap r (hact snap r hr),
    fun g => by rw [hw]; exact h.swm g, fun g hg l hl => ?_, fun g hg hl => ?_,
    fun hg l hl => ?_⟩
  · rw [hw] at hg
    rw [hshows, hcap, hstate]
    exact h.mid g hg l (hlis hl)
  · rw [hw] at hg
    rw [hcap]
    refine h.captured g hg (fun hn => hl ?_)
    rw [hn] at hlis
    exact List.subset_nil.mp hlis
  · rw [hshows, hstate]
    exact h.rest (fun g => by rw [← hw]; exact hg g) l (hlis hl)

/-- A step that leaves the workers alone as well. -/
theorem aside (h : Converging applyOp s)
    (hstate : s'.host.state = s.host.state)
    (hcls : s'.host.cls = s.host.cls)
    (hcap : s'.host.prevStateCapture = s.host.prevStateCapture)
    (hlis : s'.host.commitListeners = s.host.commitListeners)
    (hnot : s'.hist.notifs = s.hist.notifs)
    (hw : s'.host.workers = s.host.workers)
    (hact : s'.host.activating = s.host.activating
      ∨ ∃ pc, s'.host.activating = some pc ∧ ∀ snap r, pc ≠ .loadFence snap r) :
    Converging applyOp s' := by
  refine h.frame hstate hcls hcap (by rw [hlis]; exact List.Subset.refl _) hnot
    (fun g => by rw [hw]) (fun snap r hr => ?_)
  rcases hact with he | ⟨pc, he, hne⟩
  · exact he ▸ hr
  · obtain rfl := Option.some.inj (he.symm.trans hr)
    exact absurd rfl (hne snap r)

end Converging

/-- The worker that is alive is the only one that can be in a turn. -/
theorem Lifecycle.outside {s : Sys S Env Op} (hl : Lifecycle s.flow.toLife)
    {g g' : ℕ} (hg : (s.host.workers g).stage.alive = true) (hne : g' ≠ g) :
    (s.host.workers g').turnStage = .outside := by
  by_contra h
  have halive : (s.host.workers g').stage.alive = true := by
    revert h
    cases s.host.workers g' <;>
      simp [WorkerPc.turnStage, WorkerPc.stage, WorkerStage.alive]
  have h₁ := (hl.alive g hg).2
  have h₂ := (hl.alive g' halive).2
  exact hne (Option.some.inj (h₂.symm.trans h₁))

namespace Converging

variable {applyOp : S → Op → S} {cfg : HostConfig S Env Op}
  {s s' : Sys S Env Op} {g : ℕ}

/-- **Worker `g` moves** to `pc`. -/
theorem moved (h : Converging applyOp s) (hl : Lifecycle s.flow.toLife)
    (hg : (s.host.workers g).stage.alive = true) {pc : WorkerPc S}
    (hw : s'.host.workers = update s.host.workers g pc)
    (hcls : s'.host.cls = s.host.cls)
    (hact : s'.host.activating = s.host.activating)
    (hswm : pc.turnStage ≠ .es)
    (hmid : pc.turnStage ≠ .outside → ∀ l ∈ s'.host.commitListeners,
      s'.Shows applyOp l (s'.host.prevStateCapture.getD s'.host.state))
    (hcap : pc.turnStage = .running → s'.host.commitListeners ≠ [] →
      s'.host.prevStateCapture ≠ none)
    (hrest : pc.turnStage = .outside → ∀ l ∈ s'.host.commitListeners,
      s'.Shows applyOp l s'.host.state) : Converging applyOp s' := by
  have hpc : (s'.host.workers g) = pc := by rw [hw, Function.update_self]
  have hother : ∀ g', g' ≠ g →
      (s'.host.workers g').turnStage = .outside := by
    intro g' hne
    rw [hw, Function.update_of_ne hne]
    exact hl.outside hg hne
  refine ⟨by rw [hcls]; exact h.cls, by rw [hact]; exact h.resolved,
    fun g' => ?_, fun g' hg' => ?_, fun g' hg' => ?_, fun hall => ?_⟩
  · by_cases hne : g' = g
    · rw [hne, hpc]
      exact hswm
    · rw [hother g' hne]
      simp
  · by_cases hne : g' = g
    · rw [hne, hpc] at hg'
      exact hmid hg'
    · exact absurd (hother g' hne) hg'
  · by_cases hne : g' = g
    · rw [hne, hpc] at hg'
      exact hcap hg'
    · rw [hother g' hne] at hg'
      exact absurd hg' (by simp)
  · have hg' := hall g
    rw [hpc] at hg'
    exact hrest hg'

/-- Worker `g` moves, at a stage of its turn, with nothing else changed. -/
theorem setWorker (h : Converging applyOp s) {pc : WorkerPc S}
    (hw : s'.host.workers = update s.host.workers g pc)
    (hstage : pc.turnStage = (s.host.workers g).turnStage)
    (hstate : s'.host.state = s.host.state)
    (hcls : s'.host.cls = s.host.cls)
    (hcap : s'.host.prevStateCapture = s.host.prevStateCapture)
    (hlis : s'.host.commitListeners = s.host.commitListeners)
    (hnot : s'.hist.notifs = s.hist.notifs)
    (hact : s'.host.activating = s.host.activating) :
    Converging applyOp s' := by
  refine h.frame hstate hcls hcap (by rw [hlis]; exact List.Subset.refl _) hnot
    (fun g' => ?_) (fun snap r hr => hact ▸ hr)
  rw [hw, Function.update_apply]
  split
  · next he => rw [he, hstage]
  · rfl

/-- Outside its turns, every subscriber shows the state. -/
theorem shows_outside (h : Converging applyOp s)
    (hl : Lifecycle s.flow.toLife)
    (hg : (s.host.workers g).stage.alive = true)
    (hout : (s.host.workers g).turnStage = .outside) :
    ∀ l ∈ s.host.commitListeners, s.Shows applyOp l s.host.state := by
  refine h.rest (fun g' => ?_)
  by_cases hne : g' = g
  · rw [hne]
    exact hout
  · exact hl.outside hg hne

/-! ### A turn -/

/-- A failed turn must have left the state as its patch would find it. -/
theorem of_turnFailed (h : Converging applyOp s)
    (hl : Lifecycle s.flow.toLife)
    (hg : (s.host.workers g).stage.alive = true)
    (hin : (s.host.workers g).turnStage ≠ .outside)
    (hG : s.host.commitListeners ≠ [] →
      s.host.prevStateCapture.getD s.host.state = s.host.state)
    (item : Item) (e : HostError) :
    Converging applyOp (s.turnFailed g item e) := by
  refine h.moved hl hg rfl rfl rfl (by simp [WorkerPc.turnStage])
    (by simp [WorkerPc.turnStage]) (by simp [WorkerPc.turnStage])
    (fun _ l hm => ?_)
  have hshow := h.mid g hin l hm
  rw [hG (List.ne_nil_of_mem hm)] at hshow
  exact hshow

/-- **The patch takes each copy to the state**, from the state the turn
began with. -/
theorem shows_commitSwmTail (h : Converging applyOp s)
    (hcmp : ∀ a b, (cfg.compare a b).foldl applyOp a = b)
    (hin : (s.host.workers g).turnStage ≠ .outside) :
    ∀ l ∈ (s.commitSwmTail cfg).host.commitListeners,
      (s.commitSwmTail cfg).Shows applyOp l
        (s.commitSwmTail cfg).host.state := by
  intro l hm
  have hm' : l ∈ s.host.commitListeners := hm
  have hshow := h.mid g hin l hm'
  unfold Sys.Shows Sys.client at hshow ⊢
  show List.foldl _ _ (if l ∈ s.host.commitListeners then
      s.hist.notifs l ++ _ else s.hist.notifs l)
    = (⟨some s.host.state, false⟩ : SubscriptionRecord S)
  rw [if_pos hm', List.foldl_append, hshow]
  cases hp : s.host.prevStateCapture with
  | none => rfl
  | some prev =>
    have hpatch := hcmp prev s.host.state
    dsimp only [Option.getD_some]
    cases hd : cfg.compare prev s.host.state with
    | nil =>
      rw [hd] at hpatch
      show (⟨some prev, false⟩ : SubscriptionRecord S) = _
      rw [show prev = s.host.state from hpatch]
    | cons op ops =>
      rw [hd] at hpatch
      show (⟨some ((op :: ops).foldl applyOp prev), false⟩ :
        SubscriptionRecord S) = _
      rw [hpatch]

/-- A turn begins: the state is captured, if anybody listens. -/
theorem of_start (h : Converging applyOp s) (hl : Lifecycle s.flow.toLife)
    (hg : (s.host.workers g).stage.alive = true)
    (hout : (s.host.workers g).turnStage = .outside)
    {item : Item} {p : Script S Json} {taken : List Item} :
    Converging applyOp (Sys.runHandler
      { s with
        host := { s.host with prevStateCapture := Sys.capture s.host }
        hist := { s.hist with taken := taken } } g item p) := by
  have hshow := h.shows_outside hl hg hout
  have hcap : s.host.commitListeners ≠ [] →
      Sys.capture s.host = some s.host.state := by
    intro hne
    unfold Sys.capture
    exact if_pos ⟨h.cls, hne⟩
  refine h.moved hl hg rfl rfl rfl ?_ (fun _ l hm => ?_) (fun _ hne => ?_)
    (fun hout' => ?_)
  · unfold WorkerPc.after
    cases p.next <;> simp [WorkerPc.turnStage]
  · have hm' : l ∈ s.host.commitListeners := hm
    show s.Shows applyOp l ((Sys.capture s.host).getD _)
    rw [hcap (List.ne_nil_of_mem hm')]
    exact hshow l hm'
  · show Sys.capture s.host ≠ none
    rw [hcap hne]
    simp
  · unfold WorkerPc.after at hout'
    cases hn : p.next <;> rw [hn] at hout' <;>
      exact absurd hout' (by simp [WorkerPc.turnStage])

/-- A turn goes on: what it began with stays captured. -/
theorem of_running (h : Converging applyOp s) (hl : Lifecycle s.flow.toLife)
    (hg : (s.host.workers g).stage.alive = true)
    (hrun : (s.host.workers g).turnStage = .running)
    {item : Item} {p : Script S Json} :
    Converging applyOp (s.runHandler g item p) := by
  refine h.moved hl hg rfl rfl rfl ?_ (fun _ l hm => ?_) (fun _ hne => ?_)
    (fun hout' => ?_)
  · unfold WorkerPc.after
    cases p.next <;> simp [WorkerPc.turnStage]
  · have hshow := h.mid g (by rw [hrun]; simp) l hm
    obtain ⟨prev, hprev⟩ := Option.ne_none_iff_exists'.mp
      (h.captured g hrun (List.ne_nil_of_mem hm))
    rw [hprev] at hshow
    show s.Shows applyOp l (s.host.prevStateCapture.getD _)
    rw [hprev]
    exact hshow
  · exact h.captured g hrun hne
  · unfold WorkerPc.after at hout'
    cases hn : p.next <;> rw [hn] at hout' <;>
      exact absurd hout' (by simp [WorkerPc.turnStage])

/-- **A segment of a worker** keeps the copies, unless its turn fails with a
mutation left behind. -/
theorem of_workerStep {env : Env} {ok : Bool} (h : Converging applyOp s)
    (hl : Lifecycle s.flow.toLife)
    (hcmp : ∀ a b, (cfg.compare a b).foldl applyOp a = b)
    (hG : (∃ item e, s.host.workers g = .returned item (.error e))
      ∨ (∃ item id after, s.host.workers g = .acking item id after
        ∧ ok = false) → s.host.commitListeners ≠ [] →
      s.host.prevStateCapture.getD s.host.state = s.host.state)
    (hs : s.workerStep cfg g env ok = some s') : Converging applyOp s' := by
  obtain ⟨pc, hpc, hseg⟩ := Sys.workerSegment hs
  have halive := Sys.alive_of_workerStep hs
  have hes := h.swm g
  rw [hpc] at hes
  cases hseg with
  | appended | resolveEs | ackEs | flushed | emptyAcked | esAcked => exact absurd rfl hes
  | resolveEmpty hc | ackEmpty hc | append hc =>
    exact absurd (h.cls.symm.trans hc) Bool.false_ne_true
  | dequeue =>
    refine h.setWorker rfl ?_ rfl rfl rfl rfl rfl rfl
    rw [turnStage_dequeuedPc, hpc]
    rfl
  | start => exact h.of_start hl halive (by rw [hpc]; rfl)
  | run => exact h.of_running hl halive (by rw [hpc]; rfl)
  | @failed pc item e hf =>
    have hin : (s.host.workers g).turnStage ≠ .outside := by
      rw [hpc]
      cases pc <;> first | exact hf.elim | skip
      case acking item id after => cases after <;> simp [WorkerPc.turnStage]
      all_goals simp [WorkerPc.turnStage]
    refine h.of_turnFailed hl halive hin (hG ?_) item e
    cases pc with
    | returned item' result =>
      cases result with
      | error e' => exact .inl ⟨item', e', hpc⟩
      | ok r => exact absurd (h.cls.symm.trans (hf.2 r rfl).1) Bool.false_ne_true
    | acking item' id after => exact .inr ⟨item', id, after, hpc, hf.2⟩
    | appending | appended | flushing => exact absurd rfl hes
    | _ => exact hf.elim
  | @resolveSwm method args r c =>
    have hin : (s.host.workers g).turnStage ≠ .outside := by
      rw [hpc]
      simp [WorkerPc.turnStage]
    have h₁ : Converging applyOp (s.resolveCall (.call method args c) c r) :=
      h.aside rfl rfl rfl rfl rfl rfl (.inl rfl)
    refine h.moved hl halive rfl rfl rfl (by simp [WorkerPc.turnStage])
      (by simp [WorkerPc.turnStage]) (by simp [WorkerPc.turnStage]) (fun _ => ?_)
    exact h₁.shows_commitSwmTail hcmp hin
  | @swmAcked item id =>
    have hin : (s.host.workers g).turnStage ≠ .outside := by
      rw [hpc]
      simp [WorkerPc.turnStage]
    have h₁ : Converging applyOp (s.afterAck id) :=
      h.aside rfl rfl rfl rfl rfl rfl (.inl rfl)
    refine h.moved hl halive rfl rfl rfl (by simp [WorkerPc.turnStage])
      (by simp [WorkerPc.turnStage]) (by simp [WorkerPc.turnStage]) (fun _ => ?_)
    exact h₁.shows_commitSwmTail hcmp hin
  | _ => exact h.setWorker rfl (by rw [hpc]; rfl) rfl rfl rfl rfl rfl rfl

end Converging

/-! ## Nobody attached

With no subscriber there is no copy to keep, so whatever a step does to the
state is allowed; what is asked of it is that it attaches nobody. -/

/-- **Nobody is attached** to an actor that is not event-sourced. -/
structure Unheard (s : Sys S Env Op) : Prop where
  cls : s.host.cls.isEs = false
  resolved : ∀ snap r, s.host.activating = some (.loadFence snap r) →
    r.ctor.isEs = false
  swm : ∀ g, (s.host.workers g).turnStage ≠ .es
  nobody : s.host.commitListeners = []

namespace Unheard

variable {applyOp : S → Op → S} {cfg : HostConfig S Env Op}
  {s s' : Sys S Env Op} {env : Env}

theorem converging (h : Unheard s) : Converging applyOp s :=
  ⟨h.cls, h.resolved, h.swm, fun _ _ l hl => absurd hl (by rw [h.nobody]; simp),
    fun _ _ hne => absurd h.nobody hne,
    fun _ l hl => absurd hl (by rw [h.nobody]; simp)⟩

theorem of_converging (h : Converging applyOp s)
    (hn : s.host.commitListeners = []) : Unheard s :=
  ⟨h.cls, h.resolved, h.swm, hn⟩

/-- Nobody is attached by a step of an activation. -/
theorem frame (h : Unheard s) (hcls : s'.host.cls.isEs = false)
    (hw : s'.host.workers = s.host.workers)
    (hlis : s'.host.commitListeners = s.host.commitListeners)
    (hact : s'.host.activating = s.host.activating
      ∨ ∃ pc, s'.host.activating = some pc ∧ ∀ snap r, pc ≠ .loadFence snap r) :
    Unheard s' := by
  refine ⟨hcls, fun snap r hr => ?_, by rw [hw]; exact h.swm, by rw [hlis]; exact h.nobody⟩
  rcases hact with he | ⟨pc, he, hne⟩
  · exact h.resolved snap r (he ▸ hr)
  · obtain rfl := Option.some.inj (he.symm.trans hr)
    exact absurd rfl (hne snap r)

theorem setActivating (h : Unheard s) {pc : ActPc S Env}
    (hpc : ∀ snap r, pc ≠ .loadFence snap r) : Unheard (s.setActivating pc) :=
  h.frame h.cls rfl rfl (.inr ⟨pc, rfl, hpc⟩)

theorem of_becomeActivated (h : Unheard s) : Unheard s.becomeActivated := by
  refine ⟨h.cls, fun snap r hr => absurd hr (by simp [Sys.becomeActivated,
    Sys.setActivating]), fun g => ?_, h.nobody⟩
  show (update s.host.workers s.host.activation _ g).turnStage ≠ .es
  rw [Function.update_apply]
  split
  · rw [turnStage_dequeuedPc]
    simp
  · exact h.swm g

theorem of_beginOnActivate (h : Unheard s) : Unheard (s.beginOnActivate env) := by
  unfold Sys.beginOnActivate
  split
  · exact h.of_becomeActivated
  · exact h.frame h.cls rfl rfl (.inr ⟨_, rfl, by simp⟩)

theorem of_beginReplay (h : Unheard s) : Unheard (s.beginReplay env) := by
  unfold Sys.beginReplay
  split
  · exact h.setActivating (by simp)
  · exact h.of_beginOnActivate

theorem of_beginOnInit (h : Unheard s) : Unheard (s.beginOnInit env) := by
  unfold Sys.beginOnInit
  split
  · exact of_beginReplay (h.frame h.cls rfl rfl (.inl rfl))
  · exact h.frame h.cls rfl rfl (.inr ⟨_, rfl, by simp⟩)

theorem of_beginMigrate (h : Unheard s) (prev : SnapshotRead S) :
    Unheard (s.beginMigrate prev) := by
  unfold Sys.beginMigrate
  split
  · exact h.frame h.cls rfl rfl (.inr ⟨_, rfl, by simp⟩)
  · exact h.frame h.cls rfl rfl (.inr ⟨_, rfl, by simp⟩)

theorem of_migrated (h : Unheard s) (x : S) : Unheard (s.migrated x) := by
  unfold Sys.migrated
  dsimp only
  split
  · exact h.frame h.cls rfl rfl (.inr ⟨_, rfl, by simp⟩)
  · exact h.frame h.cls rfl rfl (.inr ⟨_, rfl, by simp⟩)

theorem of_replay (h : Unheard s) : Unheard (s.replay cfg env) := by
  unfold Sys.replay
  dsimp only
  split
  · exact h.frame h.cls rfl rfl (.inr ⟨_, rfl, by simp⟩)
  · split
    · exact h.frame h.cls rfl rfl (.inr ⟨_, rfl, by simp⟩)
    · refine of_beginOnActivate (h.frame ?_ rfl rfl (.inl rfl))
      exact h.cls

end Unheard

/-! ## The other steps -/

namespace Converging

variable {applyOp : S → Op → S} {cfg : HostConfig S Env Op}
  {s s' : Sys S Env Op} {env : Env}

/-- **A step beside the state** wakes workers that are in no turn, if any. -/
theorem of_beside (h : Converging applyOp s) (hb : Beside s s') : Converging applyOp s' := by
  refine h.frame (congrArg Objects.read hb.objs) hb.cls hb.prevStateCapture
    (hb.commitListeners ▸ List.Subset.refl _) hb.notifs (fun g => ?_)
    (fun snap r hr => hb.activating_eq hr rfl)
  rcases hb.workers g with he | ⟨hw, ⟨item, he⟩ | he⟩
  · rw [he]
  · rw [he, hw]
    rfl
  · rw [he, hw]
    rfl

/-- **A segment of an activation** leaves the state alone, or finds nobody
attached. -/
theorem of_actStep {ok : Bool} (h : Converging applyOp s)
    (hl : Lifecycle s.flow.toLife) (hcfg : cfg.Swm)
    (hG : ∀ pc, s.host.activating = some pc → pc.installs = true →
      s.host.commitListeners = [])
    (hs : s.actStep cfg env ok = some s') : Converging applyOp s' := by
  obtain hb | ⟨-, pc, hpc, ht, hseg⟩ := Sys.beside_or_opens hl hs
  · exact h.of_beside hb
  have hu : pc.installs = true → Unheard s := fun hi => .of_converging h (hG pc hpc hi)
  cases hseg with
  | inboxFailed | readInbox | replayInbox | settled => exact absurd ht (by simp [ActPc.through])
  | failed | loadSnapshot | retained | migrateFlushed =>
    exact h.aside rfl rfl rfl rfl rfl rfl (.inr ⟨_, rfl, by simp⟩)
  | resolveCtor hr =>
    refine ⟨h.cls, fun snap' r' hr' => ?_, h.swm, h.mid, h.captured, h.rest⟩
    obtain ⟨rfl, rfl⟩ := ActPc.loadFence.inj (Option.some.inj hr')
    exact hcfg.resolveCtor hr
  | blank =>
    exact Unheard.converging
      ((hu rfl).frame (h.resolved _ _ hpc) rfl rfl (.inr ⟨_, rfl, by simp⟩))
  | @migrates snap r =>
    have h₁ : Unheard (s.loaded r snap) := (hu rfl).frame (h.resolved _ _ hpc) rfl rfl (.inl rfl)
    exact (h₁.of_beginMigrate snap).converging
  | @loaded snap r =>
    have h₁ : Unheard (s.loaded r snap) := (hu rfl).frame (h.resolved _ _ hpc) rfl rfl (.inl rfl)
    exact h₁.of_beginReplay.converging
  | registerEs hok hes => exact absurd (h.cls.symm.trans hes) Bool.false_ne_true
  | register =>
    have h₁ : Unheard (s.withRow cfg) := (hu rfl).frame h.cls rfl rfl (.inl rfl)
    exact h₁.of_beginOnInit.converging
  | onInit | onActivate =>
    exact Unheard.converging ((hu rfl).frame h.cls rfl rfl (.inr ⟨_, rfl, by simp⟩))
  | initialized | noMigrate | audited => exact (hu rfl).of_beginReplay.converging
  | migrated => exact ((hu rfl).of_migrated _).converging
  | upToDate => exact (hu rfl).of_beginOnActivate.converging
  | behind => exact ((hu rfl).setActivating (by simp)).converging
  | replayed => exact (hu rfl).of_replay.converging
  | replayFlushed =>
    have h₁ : Unheard s.afterFlush := (hu rfl).frame h.cls rfl rfl (.inl rfl)
    exact h₁.of_beginOnActivate.converging
  | activated => exact (hu rfl).of_becomeActivated.converging

/-- A hook that leaves the state alone, or nobody attached. -/
theorem of_runSegment {R : Type} (h : Converging applyOp s) {p : Script S R}
    (hG : p.change.isKeep = true ∨ s.host.commitListeners = []) :
    Converging applyOp (s.runSegment p) := by
  rcases hG with hk | hn
  · have hc : p.change = .keep := by
      revert hk
      cases p.change <;> simp [Change.isKeep]
    refine h.aside ?_ rfl rfl rfl rfl rfl (.inl rfl)
    show (s.host.objs.apply p.change).read = s.host.objs.read
    rw [hc]
    rfl
  · exact Unheard.converging
      ((Unheard.of_converging h hn).frame h.cls rfl rfl (.inl rfl))

theorem of_beginOnDeactivate (h : Converging applyOp s)
    (hG : ∀ hook, s.host.inst.isSome = true →
      s.host.cls.onDeactivate = some hook →
      (hook env s.host.state).change.isKeep = true
        ∨ s.host.commitListeners = [])
    (idle : Bool) : Converging applyOp (s.beginOnDeactivate env idle) := by
  unfold Sys.beginOnDeactivate
  split
  · next i f hi hf =>
    exact (h.of_runSegment (hG f (by rw [hi]; rfl) hf)).aside
      rfl rfl rfl rfl rfl rfl (.inl rfl)
  · exact h.aside rfl rfl rfl rfl rfl rfl (.inl rfl)

/-- A flush only reads the state. -/
theorem of_flush (h : Converging applyOp s) :
    Converging applyOp { s with host := s.host.flushSnapshot } :=
  h.aside (Host.state_flushSnapshot _) rfl rfl rfl rfl rfl (.inl rfl)

theorem of_deactStep (h : Converging applyOp s)
    (hG : ∀ p, s.hookSegment env = some p →
      p.change.isKeep = true ∨ s.host.commitListeners = [])
    (hs : s.deactStep env = some s') : Converging applyOp s' := by
  obtain ⟨pc, idle, hd, hseg⟩ := Sys.deactSegment hs
  rw [Sys.hookSegment, hd] at hG
  cases hseg with
  | flush =>
    have h₁ : Converging applyOp { s with host := { s.host with snapshotTimer := false } } :=
      h.aside rfl rfl rfl rfl rfl rfl (.inl rfl)
    exact h₁.of_flush.aside rfl rfl rfl rfl rfl rfl (.inl rfl)
  | unflushed hw hf =>
    have h₁ : Converging applyOp { s with host := { s.host with snapshotTimer := false } } :=
      h.aside rfl rfl rfl rfl rfl rfl (.inl rfl)
    refine h₁.of_beginOnDeactivate (fun hook hi hh => hG _ ?_) idle
    have hi : s.host.inst.isSome = true := hi
    have hh : s.host.cls.onDeactivate = some hook := hh
    simp only [hf, hi, hh, if_true]
    rfl
  | flushed =>
    have h₁ : Converging applyOp s.afterFlush := h.aside rfl rfl rfl rfl rfl rfl (.inl rfl)
    refine h₁.of_beginOnDeactivate (fun hook hi hh => hG _ ?_) idle
    have hi : s.host.inst.isSome = true := hi
    have hh : s.host.cls.onDeactivate = some hook := hh
    simp only [hi, hh, if_true]
    rfl
  | onDeactivate =>
    exact (h.of_runSegment (hG _ rfl)).aside rfl rfl rfl rfl rfl rfl (.inl rfl)
  | _ => exact h.aside rfl rfl rfl rfl rfl rfl (.inl rfl)

/-- A subscriber attaches between two turns, or in the middle of one that
has not changed the state so far and will emit its patch. -/
theorem of_subscribe {l : ℕ} (h : Converging applyOp s)
    (hi : s.host.inst.isSome = true)
    (hmid : ∀ g, (s.host.workers g).turnStage ≠ .outside →
      s.host.prevStateCapture.getD s.host.state = s.host.state)
    (hrun : ∀ g, (s.host.workers g).turnStage = .running →
      s.host.prevStateCapture ≠ none)
    (hs : s.subscribe l = some s') : Converging applyOp s' := by
  unfold Sys.subscribe at hs
  split at hs
  · exact absurd hs (by simp)
  next hl =>
  obtain rfl := Option.some.inj hs
  obtain ⟨i, hi⟩ := Option.isSome_iff_exists.mp hi
  have hnew : Sys.Shows applyOp
      { s with
        host :=
          { s.host with commitListeners := s.host.commitListeners ++ [l] }
        hist :=
          { s.hist with
            notifs := update s.hist.notifs l
              [.snapshot (s.host.inst.map (fun _ => s.host.state))
                s.host.currentSeq] } } l s.host.state := by
    unfold Sys.Shows Sys.client
    dsimp only
    rw [Function.update_self, hi]
    rfl
  have hold : ∀ l' ∈ s.host.commitListeners, ∀ x, s.Shows applyOp l' x →
      Sys.Shows applyOp
        { s with
          host :=
            { s.host with commitListeners := s.host.commitListeners ++ [l] }
          hist :=
            { s.hist with
              notifs := update s.hist.notifs l
                [.snapshot (s.host.inst.map (fun _ => s.host.state))
                  s.host.currentSeq] } } l' x := by
    intro l' hl' x hx
    have hne : l' ≠ l := fun he => hl (he ▸ hl')
    unfold Sys.Shows Sys.client at hx ⊢
    dsimp only
    rw [Function.update_of_ne hne]
    exact hx
  refine ⟨h.cls, h.resolved, h.swm, fun g hg l' hl' => ?_,
    fun g hg _ => hrun g hg, fun hall l' hl' => ?_⟩
  · rcases List.mem_append.mp hl' with hl' | hl'
    · exact hold l' hl' _ (h.mid g hg l' hl')
    · obtain rfl := List.mem_singleton.mp hl'
      show Sys.Shows applyOp _ l' (s.host.prevStateCapture.getD s.host.state)
      rw [hmid g hg]
      exact hnew
  · rcases List.mem_append.mp hl' with hl' | hl'
    · exact hold l' hl' _ (h.rest hall l' hl')
    · obtain rfl := List.mem_singleton.mp hl'
      exact hnew

end Converging

/-! ## Runs

The condition excludes a turn that fails, or a hook that changes the state,
under a subscriber, and a subscription in the middle of a turn. -/

namespace Sys

variable [DecidableEq S]

/-- The state is what the turn began with, or nobody listens. -/
def faithful (s : Sys S Env Op) : Bool :=
  s.host.commitListeners.isEmpty
    || decide (s.host.prevStateCapture.getD s.host.state = s.host.state)

/-- A subscriber may attach: there is an instance, and no turn in progress,
or one whose patch will be about the state as it is now. -/
def attachable (s : Sys S Env Op) : Bool :=
  s.host.inst.isSome
    && match s.host.workerPromise with
      | none => true
      | some g =>
        match (s.host.workers g).turnStage with
        | .outside => true
        | .running => decide (s.host.prevStateCapture = some s.host.state)
        | _ =>
          decide (s.host.prevStateCapture.getD s.host.state = s.host.state)

/-- **When the copies are kept**: a turn that fails has not changed the
state, a subscriber attaches outside a turn or while its patch is still
right for it, and while one is attached no activation installs a state and
no `onDeactivate` changes it. -/
def keepsCopies (s : Sys S Env Op) : Act Env → Bool
  | .worker g _ ok =>
    match s.host.workers g with
    | .returned _ (.error _) => s.faithful
    | .acking _ _ _ => ok || s.faithful
    | _ => true
  | .subscribe _ => s.attachable
  | .activation _ _ =>
    s.host.commitListeners.isEmpty
      || s.host.activating.all (fun pc => !pc.installs)
  | .deactivation env =>
    s.host.commitListeners.isEmpty
      || (s.hookSegment env).all (fun p => p.change.isKeep)
  | _ => true

end Sys

/-- **The subscribers have converged**: between two turns, each of them
shows the state. -/
def SubscribersConverged (applyOp : S → Op → S) (s : Sys S Env Op) : Prop :=
  (∀ g, (s.host.workers g).turnStage = .outside) →
    ∀ l ∈ s.host.commitListeners, s.Shows applyOp l s.host.state

namespace Converging

variable {applyOp : S → Op → S} {cfg : HostConfig S Env Op}
  {s s' : Sys S Env Op}

theorem init (hcfg : cfg.Swm) (store : ActorStore S) :
    Converging applyOp (Sys.init cfg store) :=
  Unheard.converging ⟨hcfg.ctor,
    fun snap r hr => absurd hr (by simp [Sys.init, Host.init]),
    fun g => by simp [Sys.init, Host.init, WorkerPc.turnStage], rfl⟩

/-- The debounce timer, and the driver, only read the state. -/
theorem of_snapshotFire (h : Converging applyOp s)
    (hs : s.snapshotFire = some s') : Converging applyOp s' := by
  unfold Sys.snapshotFire at hs
  split at hs
  · have h₁ : Converging applyOp { s with
        host := { s.host with snapshotTimer := false } } :=
      h.aside rfl rfl rfl rfl rfl rfl (.inl rfl)
    dsimp only at hs
    split at hs <;> obtain rfl := Option.some.inj hs
    · exact h₁.of_flush.aside rfl rfl rfl rfl rfl rfl (.inl rfl)
    · exact h₁
  · exact absurd hs (by simp)

theorem of_saveStep {k : ℕ} {ok : Bool} (h : Converging applyOp s)
    (hs : s.saveStep k ok = some s') : Converging applyOp s' := by
  unfold Sys.saveStep at hs
  split at hs
  · split at hs <;> obtain rfl := Option.some.inj hs
    · exact h.aside rfl rfl rfl rfl rfl rfl (.inl rfl)
    · exact h.aside rfl rfl rfl rfl rfl rfl (.inl rfl)
  · split at hs <;> obtain rfl := Option.some.inj hs
    · exact h.aside rfl rfl rfl rfl rfl rfl (.inl rfl)
    · exact h.aside rfl rfl rfl rfl rfl rfl (.inl rfl)
  · exact absurd hs (by simp)

/-- The subscriber that attaches is one the turn in progress, if any, will
be right for. -/
theorem of_attachable [DecidableEq S] {l : ℕ} (h : Converging applyOp s)
    (hl : Lifecycle s.flow.toLife) (hG : s.attachable = true)
    (hs : s.subscribe l = some s') : Converging applyOp s' := by
  rw [Sys.attachable, Bool.and_eq_true] at hG
  obtain ⟨hi, hG⟩ := hG
  have hat : ∀ g, (s.host.workers g).turnStage ≠ .outside →
      s.host.workerPromise = some g := by
    intro g hg
    refine (hl.alive g ?_).2
    show (s.host.workers g).stage.alive = true
    revert hg
    cases s.host.workers g <;>
      simp [WorkerPc.turnStage, WorkerPc.stage, WorkerStage.alive]
  refine h.of_subscribe hi (fun g hg => ?_) (fun g hg => ?_) hs
  · rw [hat g hg] at hG
    dsimp only at hG
    split at hG
    · next hout => exact absurd hout hg
    · rw [of_decide_eq_true hG]
      rfl
    · exact of_decide_eq_true hG
  · rw [hat g (by rw [hg]; simp)] at hG
    dsimp only at hG
    rw [hg] at hG
    dsimp only at hG
    rw [of_decide_eq_true hG]
    simp

/-- **One step of a host keeps the copies**, under its condition. -/
theorem step [DecidableEq S] {a : Act Env} (h : Converging applyOp s)
    (hl : Lifecycle s.flow.toLife) (hcfg : cfg.Swm)
    (hcmp : ∀ a b, (cfg.compare a b).foldl applyOp a = b)
    (hG : s.keepsCopies a = true) (hs : s.step cfg a = some s') :
    Converging applyOp s' := by
  have hfaith : s.faithful = true → s.host.commitListeners ≠ [] →
      s.host.prevStateCapture.getD s.host.state = s.host.state := by
    intro hf hne
    rw [Sys.faithful, Bool.or_eq_true, List.isEmpty_iff] at hf
    exact of_decide_eq_true (hf.resolve_left hne)
  cases a with
  | activation env ok =>
    refine h.of_actStep hl hcfg (fun pc hpc hi => ?_) hs
    rw [Sys.keepsCopies, hpc, Bool.or_eq_true, List.isEmpty_iff] at hG
    refine hG.resolve_right ?_
    simp [hi]
  | worker g env ok =>
    refine h.of_workerStep hl hcmp (fun hfail => hfaith ?_) hs
    rcases hfail with ⟨item, e, hpc⟩ | ⟨item, id, after, hpc, rfl⟩
    · rw [Sys.keepsCopies, hpc] at hG
      exact hG
    · rw [Sys.keepsCopies, hpc] at hG
      exact hG
  | deactivation env =>
    refine h.of_deactStep (fun p hp => ?_) hs
    rw [Sys.keepsCopies, hp, Bool.or_eq_true, List.isEmpty_iff] at hG
    exact hG.symm
  | snapshotFire => exact h.of_snapshotFire hs
  | save k ok => exact h.of_saveStep hs
  | subscribe l => exact h.of_attachable hl hG hs
  | unsubscribe l =>
    obtain rfl := Option.some.inj hs
    exact h.frame rfl rfl rfl (List.filter_subset_self _) rfl (fun _ => rfl)
      (fun snap r hr => hr)
  | notifyTombstone =>
    obtain rfl := Option.some.inj hs
    exact Unheard.converging ⟨h.cls, h.resolved, h.swm, rfl⟩
  | _ => exact h.of_beside (Sys.beside_step hl rfl hs)

end Converging

/-- **Subscribers converge** in every state reached by a run along which no
turn fails with a mutation left behind, subscribers attach only where the
patch of the turn in progress is right for them, and no state is installed
under one. -/
theorem subscribers_converge [DecidableEq S] (cfg : HostConfig S Env Op)
    (hcfg : cfg.Swm) (applyOp : S → Op → S)
    (hcmp : ∀ a b, (cfg.compare a b).foldl applyOp a = b)
    (store : ActorStore S) {as : List (Act Env)} {s : Sys S Env Op}
    (hG : TransitionSystem.Along (Sys.step cfg)
      (fun s a => s.keepsCopies a = true) (.init cfg store) as)
    (hs : TransitionSystem.run (Sys.step cfg) (.init cfg store) as = some s) :
    SubscribersConverged applyOp s := by
  have h : Lifecycle s.flow.toLife ∧ Converging applyOp s :=
    TransitionSystem.run_invariant (Sys.step cfg)
      (P := fun s => Lifecycle s.flow.toLife ∧ Converging applyOp s)
      (fun _ _ _ h hG hs => ⟨h.1.of_moves (Sys.flow_step hs),
        h.2.step h.1 hcfg hcmp hG hs⟩)
      ⟨.init cfg store, .init hcfg store⟩ hG hs
  exact h.2.rest

/-- The counter is not event-sourced. -/
theorem Counter.swm : Counter.cfg.Swm :=
  ⟨rfl, fun _ _ _ _ hload => absurd hload (by simp [Counter.cfg])⟩

/-- Applying a patch of the counter replaces the number. -/
theorem Counter.patches (a b : ℕ) :
    (Counter.cfg.compare a b).foldl (fun _ n => n) a = b := by
  show (if a = b then [] else [b]).foldl (fun _ n => n) a = b
  split
  · assumption
  · rfl

/-- A subscriber attaches, a turn that awaits between two mutations, another
subscriber attaches after it, and one more turn. -/
def subscribedBetweenTurns : List (Act Bool) :=
  [.activate] ++ Counter.activating 8
    ++ [.subscribe 0, .callStart 0 "twice" .null] ++ Counter.working 1 5
    ++ [.subscribe 1, .callStart 1 "inc" .null] ++ Counter.working 1 4

/-- The theorem applies to that run, at the end of which both subscribers
show 3. -/
theorem subscribers_converge_subscribedBetweenTurns :
    ∃ s, TransitionSystem.run (Sys.step Counter.cfg)
        (.init Counter.cfg .empty) subscribedBetweenTurns = some s
      ∧ s.host.commitListeners = [0, 1] ∧ s.host.state = 3
      ∧ SubscribersConverged (fun _ n => n) s := by
  have hrun : (TransitionSystem.run (Sys.step Counter.cfg)
      (.init Counter.cfg .empty) subscribedBetweenTurns).any
        (fun s => s.host.commitListeners == [0, 1] && s.host.state == 3)
          = true := by decide
  obtain ⟨s, hs, hr⟩ := (Option.any_eq_true _ _).mp hrun
  simp only [Bool.and_eq_true, beq_iff_eq] at hr
  exact ⟨s, hs, hr.1, hr.2, subscribers_converge Counter.cfg Counter.swm
    (fun _ n => n) Counter.patches .empty (by decide) hs⟩

/-- A subscriber attaches, and a turn throws after a mutation. -/
def failedUnderSubscriber : List (Act Bool) :=
  [.activate] ++ Counter.activating 8
    ++ [.subscribe 0, .callStart 0 "fail" .null] ++ Counter.working 1 2

/-- **A copy may be left behind**: the turn that failed emits no patch. -/
theorem not_subscribers_converge :
    ¬∀ (as : List (Act Bool)) (s : Sys ℕ Bool ℕ),
      TransitionSystem.run (Sys.step Counter.cfg) (.init Counter.cfg .empty) as
        = some s → SubscribersConverged (fun _ n => n) s := by
  intro h
  have hrun : (TransitionSystem.run (Sys.step Counter.cfg)
      (.init Counter.cfg .empty) failedUnderSubscriber).any
        (fun s => s.host.commitListeners.contains 0 && s.host.state == 1
          && (s.client (fun _ n => n) 0).state == some 0
          && (s.host.workers 1).stage.alive
          && (s.host.workers 1).turnStage == .outside) = true := by decide
  obtain ⟨s, hs, hr⟩ := (Option.any_eq_true _ _).mp hrun
  simp only [Bool.and_eq_true, beq_iff_eq, List.contains_iff_mem] at hr
  obtain ⟨⟨⟨⟨hm, hstate⟩, hclient⟩, halive⟩, hout⟩ := hr
  have hl : Lifecycle s.flow.toLife :=
    Sys.lifecycle_run hs
  have hshow := h failedUnderSubscriber s hs (fun g => by
    by_cases hne : g = 1
    · rw [hne]
      exact hout
    · exact hl.outside halive hne) 0 hm
  have hstate' := congrArg SubscriptionRecord.state hshow
  rw [hclient, hstate] at hstate'
  exact absurd hstate' (by simp)
