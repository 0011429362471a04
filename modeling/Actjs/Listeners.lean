import Actjs.Beside
import Actjs.Opening

/-!
# Who is told of a step

What a host sends goes to its listeners and to nobody else, and nobody becomes
a listener but by subscribing, or ceases to be one but by being detached.
`Sys.tells_step` says so of every step but these, and `Sys.hears_step` of every
step but the subscription itself.
-/

open Function (update)

variable {S Env Op : Type}

/-- **A step tells nobody but the listeners**, who stay the same. -/
structure TellsListeners (s s' : Sys S Env Op) : Prop where
  listeners : s'.host.commitListeners = s.host.commitListeners
  notifs : ∀ l ∉ s.host.commitListeners, s'.hist.notifs l = s.hist.notifs l

/-- **A step tells nobody but the listeners there were**, and makes nobody a
listener. -/
structure Hears (s s' : Sys S Env Op) : Prop where
  listeners : s'.host.commitListeners ⊆ s.host.commitListeners
  notifs : ∀ l ∉ s.host.commitListeners, s'.hist.notifs l = s.hist.notifs l

namespace TellsListeners

variable {cfg : HostConfig S Env Op} {s s' t : Sys S Env Op}

/-- A step that tells nobody anything. -/
theorem of_eq (hl : s'.host.commitListeners = s.host.commitListeners)
    (hn : s'.hist.notifs = s.hist.notifs) : TellsListeners s s' :=
  ⟨hl, fun _ _ => by rw [hn]⟩

theorem refl (s : Sys S Env Op) : TellsListeners s s := of_eq rfl rfl

theorem hears (h : TellsListeners s s') : Hears s s' :=
  ⟨by rw [h.listeners]; exact List.Subset.refl _, h.notifs⟩

theorem trans (h : TellsListeners s t) (h' : TellsListeners t s') : TellsListeners s s' :=
  ⟨h'.listeners.trans h.listeners, fun l hl =>
    (h'.notifs l (fun hl' => hl (h.listeners ▸ hl'))).trans (h.notifs l hl)⟩

theorem beside (h : Beside s s') : TellsListeners s s' := of_eq h.commitListeners h.notifs

theorem opens (h : Opens cfg s s') : TellsListeners s s' := of_eq h.commitListeners h.notifs

theorem emit (s : Sys S Env Op) (ns : List (Notification S Op)) :
    TellsListeners s (s.emit ns) :=
  ⟨rfl, fun _ hl => if_neg hl⟩

/-- A part of a step that changes nothing that is said or heard. -/
theorem after (h : TellsListeners s t) (hl : s'.host.commitListeners = t.host.commitListeners)
    (hn : s'.hist.notifs = t.hist.notifs) : TellsListeners s s' :=
  h.trans (of_eq hl hn)

/-! ### A turn -/

theorem runSegment {R : Type} (s : Sys S Env Op) (p : Script S R) :
    TellsListeners s (s.runSegment p) := of_eq rfl rfl

theorem commitSwmTail (s : Sys S Env Op) : TellsListeners s (s.commitSwmTail cfg) := by
  unfold Sys.commitSwmTail
  have hs : TellsListeners s { s with
      host := { s.host.scheduleSnapshot with prevStateCapture := none } } :=
    of_eq rfl rfl
  exact hs.trans (emit _ _)

theorem commitEsTail (s : Sys S Env Op) (g : ℕ) (item : Item) (events : List Json) :
    TellsListeners s (s.commitEsTail cfg g item events) := by
  unfold Sys.commitEsTail
  dsimp only
  split
  · exact (emit s _).after rfl rfl
  · exact (emit s _).after rfl rfl

theorem workerStep {g : ℕ} {env : Env} {ok : Bool}
    (hs : s.workerStep cfg g env ok = some s') : TellsListeners s s' := by
  obtain ⟨pc, hpc, hseg⟩ := Sys.workerSegment hs
  cases hseg with
  | @resolveSwm method args r c =>
    have hs : TellsListeners s (s.resolveCall (.call method args c) c r) := of_eq rfl rfl
    exact (hs.trans (commitSwmTail _)).after rfl rfl
  | @resolveEs method args c events seq x =>
    have hs : TellsListeners s ((s.afterFold events seq x).resolveCall (.call method args c) c
      (.arr events)) := of_eq rfl rfl
    exact hs.trans (commitEsTail _ _ _ _)
  | @swmAcked item id =>
    have hs : TellsListeners s (s.afterAck id) := of_eq rfl rfl
    exact (hs.trans (commitSwmTail _)).after rfl rfl
  | @esAcked item id events =>
    have hs : TellsListeners s (s.afterAck id) := of_eq rfl rfl
    exact hs.trans (commitEsTail _ _ _ _)
  | _ => exact of_eq rfl rfl

/-! ### A deactivation -/

theorem beginOnDeactivate (s : Sys S Env Op) (env : Env) (idle : Bool) :
    TellsListeners s (s.beginOnDeactivate env idle) := by
  unfold Sys.beginOnDeactivate
  split <;> exact of_eq rfl rfl

theorem deactStep {env : Env} (hs : s.deactStep env = some s') : TellsListeners s s' := by
  obtain ⟨pc, idle, hd, hseg⟩ := Sys.deactSegment hs
  cases hseg with
  | unflushed =>
    have hs : TellsListeners s { s with host := { s.host with snapshotTimer := false } } :=
      of_eq rfl rfl
    exact hs.trans (beginOnDeactivate _ _ _)
  | flushed =>
    have hs : TellsListeners s s.afterFlush := of_eq rfl rfl
    exact hs.trans (beginOnDeactivate _ _ _)
  | _ => exact of_eq rfl rfl

end TellsListeners

/-- What subscribes, or detaches a subscriber. -/
def Act.attaches {Env : Type} : Act Env → Bool
  | .subscribe _ => true
  | .unsubscribe _ => true
  | .notifyTombstone => true
  | _ => false

/-- **Only listeners are told of a step**, and they stay the same but for those
that are attached or detached. -/
theorem Sys.tells_step {cfg : HostConfig S Env Op} {s s' : Sys S Env Op}
    {a : Act Env} (hl : Lifecycle s.flow.toLife) (ha : a.attaches = false)
    (hs : s.step cfg a = some s') : TellsListeners s s' := by
  cases a with
  | activation env ok => exact .opens (Sys.opens_actStep hs)
  | worker g env ok => exact .workerStep hs
  | deactivation env => exact .deactStep hs
  | snapshotFire =>
    rw [Sys.step, Sys.snapshotFire] at hs
    split at hs
    · dsimp only at hs
      split at hs <;> obtain rfl := Option.some.inj hs <;> exact .of_eq rfl rfl
    · exact absurd hs (by simp)
  | save k ok =>
    rw [Sys.step, Sys.saveStep] at hs
    split at hs
    · split at hs <;> obtain rfl := Option.some.inj hs <;> exact .of_eq rfl rfl
    · split at hs <;> obtain rfl := Option.some.inj hs <;> exact .of_eq rfl rfl
    · exact absurd hs (by simp)
  | subscribe l => exact absurd ha (by simp [Act.attaches])
  | unsubscribe l => exact absurd ha (by simp [Act.attaches])
  | notifyTombstone => exact absurd ha (by simp [Act.attaches])
  | _ => exact .beside (Sys.beside_step hl rfl hs)

/-- **Only listeners hear of a step.** -/
theorem Sys.hears_step {cfg : HostConfig S Env Op} {s s' : Sys S Env Op}
    {a : Act Env} (hl : Lifecycle s.flow.toLife) (ha : ∀ l, a ≠ .subscribe l)
    (hs : s.step cfg a = some s') : Hears s s' := by
  by_cases hatt : a.attaches = false
  · exact (Sys.tells_step hl hatt hs).hears
  cases a with
  | subscribe l => exact absurd rfl (ha l)
  | unsubscribe l =>
    obtain rfl := Option.some.inj hs
    exact ⟨fun _ hl => List.mem_of_mem_filter hl, fun _ _ => rfl⟩
  | notifyTombstone =>
    obtain rfl := Option.some.inj hs
    exact ⟨fun _ hl => absurd hl List.not_mem_nil, fun _ hl => if_neg hl⟩
  | _ => exact absurd rfl hatt

/-- One who subscribes hears the state, and nobody else anything. -/
theorem Sys.subscribe_eq {s s' : Sys S Env Op} {l : ℕ} (hs : s.subscribe l = some s') :
    s'.host.commitListeners = s.host.commitListeners ++ [l]
      ∧ ∀ l' ≠ l, s'.hist.notifs l' = s.hist.notifs l' := by
  unfold Sys.subscribe at hs
  split at hs
  · exact absurd hs (by simp)
  · obtain rfl := Option.some.inj hs
    exact ⟨rfl, fun l' hne => Function.update_of_ne hne _ _⟩
