import Actjs.Promises
import Actjs.SerialTurns
import Actjs.Tombstone

/-!
# Idle eviction, from outside

A host that goes idle closes its mailbox at once, and is evicted only after its
worker has returned, its state was flushed and its `onDeactivate` has run. Until
then the directory hands it out, and a call or a tell that gets to it then is
turned away. Nothing else goes wrong: a call is put into a mailbox once, handled
once, and by a worker whose instance is there; `HostFlow.Once` is the invariant
of that, and `Host.Welcoming` says that nobody was turned away.

## How it is proved

That a call is handled once holds of every run, and the proof does not look at
storage: a mailbox accepts a call once, hands it out once, and a call that was
handed out is `Spent`. That nobody is turned away needs a host to be
`receptive` where it is called; then each function of the host keeps
`Welcoming`, which is one lemma a function.
-/

open Function (update)

/-- The calls among some items. -/
def callIds (items : List Item) : List ℕ := items.filterMap Item.callId?

@[simp] theorem callIds_nil : callIds [] = [] := rfl

@[simp] theorem callIds_append (xs ys : List Item) :
    callIds (xs ++ ys) = callIds xs ++ callIds ys := List.filterMap_append

@[simp] theorem callIds_tell (type : String) (payload : Json) (id : ℕ) :
    callIds [.tell type payload id] = [] := rfl

@[simp] theorem callIds_call (method : String) (args : Json) (c : ℕ) :
    callIds [.call method args c] = [c] := rfl

/-! ## Each call is handled once

A call enters one mailbox, and is taken out of it once. No condition is needed
for that. -/

namespace HostFlow

variable {f f' : HostFlow} {g c : ℕ}

/-- A mailbox has accepted call `c`. -/
def Entered (f : HostFlow) (c : ℕ) : Prop :=
  ∃ task, f.calls c = some task ∧ task.pc.entered = true

/-- It is not taken back. -/
theorem Moves.entered {Env : Type} {a : Act Env} (hs : f.Moves f' a)
    (hl : Lifecycle f.toLife) (h : f.Entered c) : f'.Entered c := by
  obtain ⟨task, ht, he⟩ := h
  rcases hs.call hl ht he with h | ⟨r, h⟩
  · exact ⟨task, h, he⟩
  · exact ⟨_, h, CallTask.settle_entered he⟩

/-- What `enqueue` adds to what was accepted. -/
theorem accepted_enqueue (f : HostFlow) (item : Item) :
    (f.enqueue item).accepted = f.accepted
      ∨ (f.enqueue item).accepted = f.accepted ++ [item] := by
  unfold enqueue
  dsimp only
  split
  · exact .inr rfl
  · exact .inl rfl

/-- Tells are no calls. -/
theorem callIds_enqueue_tell (f : HostFlow) (type : String) (payload : Json)
    (id : ℕ) : callIds (f.enqueue (.tell type payload id)).accepted
      = callIds f.accepted := by
  rcases f.accepted_enqueue (.tell type payload id) with h | h <;> rw [h]
  simp

theorem callIds_enqueueAll (f : HostFlow) (rs : List InboxRecord) :
    callIds (f.enqueueAll rs).accepted = callIds f.accepted := by
  induction rs generalizing f with
  | nil => rfl
  | cons r rs ih =>
    rw [enqueueAll]
    split
    · rfl
    · exact (ih _).trans (callIds_enqueue_tell _ _ _ _)

/-- **What a move adds to a mailbox**: it creates a new one, or hands on what is
there, or lets in a call that no mailbox has accepted before. -/
structure Admits (f f' : HostFlow) : Prop where
  taken : f'.accepted = [] ∧ f'.taken = [] ∨ f.taken <+: f'.taken
  accepted : f'.accepted = [] ∨ callIds f'.accepted = callIds f.accepted
    ∨ ∃ c, ¬f.Entered c ∧ f'.Entered c
      ∧ callIds f'.accepted = callIds f.accepted ++ [c]

theorem Admits.same (ha : callIds f'.accepted = callIds f.accepted)
    (ht : f'.taken = f.taken) : f.Admits f' :=
  ⟨.inr (ht ▸ List.prefix_refl _), .inr (.inl ha)⟩

theorem Opening.admits (h : f.Opening f') : f.Admits f' := by
  cases h with
  | none => exact .same rfl rfl
  | refuse ha hp => exact .same rfl rfl
  | begin capacity hc ha hp => exact ⟨.inl ⟨rfl, rfl⟩, .inl rfl⟩

theorem Activating.admits (h : f.Activating f') : f.Admits f' := by
  cases h with
  | @replayed pending hp =>
    refine .same (f.callIds_enqueueAll pending) ?_
    rw [enqueueAll_frame]
  | _ => exact .same rfl rfl

theorem Working.admits (h : f.Working g f') : f.Admits f' := by
  have htake : ∀ {f' : HostFlow} {item : Item}, f'.accepted = f.accepted →
      f'.taken = f.taken ++ [item] → f.Admits f' := fun ha ht =>
    ⟨.inr ⟨_, ht.symm⟩, .inr (.inl (congrArg callIds ha))⟩
  cases h with
  | refuse e hg => exact htake rfl rfl
  | ignore hg => exact htake rfl rfl
  | start hg => exact htake rfl rfl
  | _ => exact .same rfl rfl

theorem Deactivating.admits (h : f.Deactivating f') : f.Admits f' := by
  cases h <;> exact .same rfl rfl

theorem Closing.admits (h : f.Closing f') (hl : Lifecycle f.toLife) :
    f.Admits f' := by
  cases h with
  | unattended f' hd ha hg => exact absurd hg (hl.present ha (by simp [hd])).1
  | _ => exact .same rfl rfl

theorem Telling.admits {t : ℕ} (h : f.Telling t f') : f.Admits f' := by
  cases h with
  | accept ht hr => exact .same (f.callIds_enqueue_tell _ _ _) rfl
  | _ => exact .same rfl rfl

theorem Calling.admits (h : f.Calling c f') (hc : ¬f.Entered c) : f.Admits f' := by
  cases h with
  | move hp => exact .same rfl rfl
  | accept method args hf hr =>
    rcases f.accepted_enqueue (.call method args c) with h | h
    · exact .same (congrArg callIds h) rfl
    · refine ⟨.inr (List.prefix_refl _), .inr (.inr ⟨c, hc, ?_, ?_⟩)⟩
      · exact ⟨_, Function.update_self _ _ _, rfl⟩
      · exact (congrArg callIds h).trans (by simp)

theorem Moves.admits {Env : Type} {a : Act Env} (hs : f.Moves f' a)
    (hl : Lifecycle f.toLife) : f.Admits f' := by
  cases a with
  | activate => exact Opening.admits hs
  | tellStart t type payload =>
    obtain ⟨-, f₁, task, ho, -, rfl⟩ := hs
    have h := ho.admits
    exact ⟨h.taken, h.accepted⟩
  | tellLand t ok => exact Telling.admits hs
  | tellResume t => exact Telling.admits hs
  | callStart c' method args =>
    have hnew : ¬f.Entered c' := fun ⟨task, ht, _⟩ => by
      rw [hs.1] at ht
      exact absurd ht (by simp)
    obtain ⟨-, ⟨-, hc⟩ | ⟨f₁, task, ho, -, rfl⟩⟩ := hs
    · exact Calling.admits hc hnew
    · have h := ho.admits
      refine ⟨h.taken, h.accepted.imp_right (fun ha => .inl ?_)⟩
      rcases ha with ha | ⟨c, hn, hin, -⟩
      · exact ha
      · -- an activation begins with no call
        refine absurd ?_ hn
        cases ho <;> exact hin
  | callResume c' =>
    obtain ⟨⟨task, ht, he⟩, hc⟩ := hs
    refine Calling.admits hc (fun ⟨task', ht', he'⟩ => ?_)
    obtain rfl := Option.some.inj (ht.symm.trans ht')
    exact absurd he' (by simp [he])
  | activation env ok => exact Activating.admits hs
  | worker g' env ok => exact Working.admits hs
  | deactivate env => exact Closing.admits hs hl
  | deactivation env => exact Deactivating.admits hs
  | destroy env => exact Closing.admits hs hl
  | idleFire env => exact Closing.admits hs hl
  | flushResume k =>
    obtain ⟨es, rfl⟩ := hs
    exact .same rfl rfl
  | _ =>
    obtain rfl := hs
    exact .same rfl rfl

/-- **Each call enters one mailbox, once.** -/
structure Once (f : HostFlow) : Prop where
  nodup : (callIds f.accepted).Nodup
  entered : ∀ c ∈ callIds f.accepted, f.Entered c

/-- Call `c` was handled, if the mailbox that accepted it is still there. -/
structure Spent (f : HostFlow) (c : ℕ) : Prop where
  entered : f.Entered c
  taken : c ∈ callIds f.accepted → c ∈ callIds f.taken

/-- What it has to do with is the host, not what storage holds. -/
theorem Once.frame (h : f.Once) (ha : f'.accepted = f.accepted)
    (hc : f'.calls = f.calls) : f'.Once where
  nodup := ha ▸ h.nodup
  entered c hmem := by
    unfold Entered
    rw [hc]
    exact h.entered c (ha ▸ hmem)

theorem Spent.frame (h : f.Spent c) (ha : f'.accepted = f.accepted)
    (ht : f'.taken = f.taken) (hc : f'.calls = f.calls) : f'.Spent c where
  entered := by
    unfold Entered
    rw [hc]
    exact h.entered
  taken hmem := by
    rw [ht]
    exact h.taken (ha ▸ hmem)

theorem Once.of_moves {Env : Type} {a : Act Env} (h : f.Once) (hl : Lifecycle f.toLife)
    (hs : f.Moves f' a) : f'.Once := by
  have hkeep : ∀ c ∈ callIds f.accepted, f'.Entered c :=
    fun c hc => hs.entered hl (h.entered c hc)
  rcases (hs.admits hl).accepted with he | he | ⟨c, hn, hin, he⟩
  · exact ⟨by simp [he], by simp [he]⟩
  · exact ⟨he ▸ h.nodup, by rwa [he]⟩
  · refine ⟨?_, fun c' hc' => ?_⟩
    · rw [he]
      exact List.nodup_append.mpr ⟨h.nodup, by simp, fun a ha b hb hab =>
        hn (h.entered c (List.mem_singleton.mp hb ▸ hab ▸ ha))⟩
    · rw [he, List.mem_append, List.mem_singleton] at hc'
      rcases hc' with hc' | rfl
      · exact hkeep c' hc'
      · exact hin

/-- **A call that was handled is not put into a mailbox again.** -/
theorem Spent.of_moves {Env : Type} {a : Act Env} (h : f.Spent c)
    (hl : Lifecycle f.toLife) (hs : f.Moves f' a) : f'.Spent c where
  entered := hs.entered hl h.entered
  taken hmem := by
    have ha := hs.admits hl
    have hold : f'.accepted ≠ [] := fun he => absurd hmem (by simp [he])
    have htaken : f.taken <+: f'.taken :=
      ha.taken.resolve_left (fun he => hold he.1)
    have hin : c ∈ callIds f.accepted := by
      rcases ha.accepted with he | he | ⟨c', hn, -, he⟩
      · exact absurd he hold
      · exact he ▸ hmem
      · rw [he, List.mem_append, List.mem_singleton] at hmem
        exact hmem.resolve_right (fun heq => hn (heq ▸ h.entered))
    exact (htaken.filterMap _).subset (h.taken hin)

/-- The worker has call `c` in its hands, and is about to have it handled. -/
def Hands (f : HostFlow) (g c : ℕ) : Prop :=
  ∃ method args, f.workers g = .received (.call method args c)

/-- It is then handled, -/
theorem Working.spent (hs : f.Working g f') (h : f.Hands g c) (hl : Lifecycle f.toLife)
    (ho : f.Once) (hf : Fifo f) : f'.Spent c := by
  obtain ⟨method, args, hg⟩ := h
  have hmem : c ∈ callIds f.accepted := by
    rw [hf.received g _ hg]
    simp [callIds, Item.callId?]
  have hentered : f'.Entered c :=
    (show f.Moves f' (.worker g () true : Act Unit) from hs).entered hl
      (ho.entered c hmem)
  have hnew : ∀ {item : Item}, f.workers g = .received item →
      f'.taken = f.taken ++ [item] → f'.Spent c := by
    intro item hitem ht
    obtain rfl := WorkerStage.received.inj (hitem.symm.trans hg)
    exact ⟨hentered, fun _ => by rw [ht]; simp⟩
  cases hs with
  | refuse e hg' => exact hnew hg' rfl
  | ignore hg' => exact hnew hg' rfl
  | start hg' => exact hnew hg' rfl
  | fail e hg' =>
    rcases hg' with hg' | ⟨id, hg'⟩ | hg' <;> exact absurd (hg.symm.trans hg') (by simp)
  | dequeue hg' => exact absurd (hg.symm.trans hg') (by simp)
  | exit hg' => exact absurd (hg.symm.trans hg') (by simp)
  | resolve r hg' => exact absurd (hg.symm.trans hg') (by simp)
  | commit hg' => exact absurd (hg.symm.trans hg') (by simp)
  | ack hg' => exact absurd (hg.symm.trans hg') (by simp)
  | turn hg' => exact absurd (hg.symm.trans hg') (by simp)
  | flush hg' => exact absurd (hg.symm.trans hg') (by simp)
  | unhandled ok hg' => exact absurd (hg.symm.trans hg') (by simp)
  | finish hg' => exact absurd (hg.symm.trans hg') (by simp)

/-- and in nobody's hands again. -/
theorem Spent.not_hands (h : f.Spent c) (ho : f.Once) (hf : Fifo f) : ¬f.Hands g c := by
  rintro ⟨method, args, hg⟩
  have he : callIds f.accepted = callIds f.taken ++ c :: callIds f.mailbox.buffer := by
    rw [hf.received g _ hg]
    simp [callIds, Item.callId?]
  have hmem : c ∈ callIds f.taken := h.taken (by rw [he]; simp)
  have hnodup := he ▸ ho.nodup
  exact (List.nodup_append.mp hnodup).2.2 c hmem c List.mem_cons_self rfl

end HostFlow

/-! ## Nobody is turned away

Everything that rejects a request has to be told apart by its error here,
since only a closed mailbox counts; so the steps are gone through as the
source has them. -/

variable {S Env Op : Type}

/-- A mailbox that is open says so, and stays open. -/
theorem Mailbox.enqueue_open {W T : Type} {m : Mailbox W T} (h : m.closed = false)
    (x : T) : (m.enqueue x).result ≠ .closed ∧ (m.enqueue x).mailbox.closed = false := by
  rcases m.enqueue_cases x with ⟨-, hc⟩ | ⟨he, -⟩ | ⟨w, m', he, -, -, -, hc, -⟩
    | ⟨m', he, -, -, -, -, -, hc, -⟩
  · exact absurd hc (by simp [h])
  · rw [he]; exact ⟨by simp, h⟩
  · rw [he]; exact ⟨by simp, hc⟩
  · rw [he]; exact ⟨by simp, hc⟩

/-- The promise of the call was not rejected because a mailbox was closed. -/
def CallTask.Welcome (task : CallTask) : Prop :=
  task.pc ≠ .refused .mailboxClosed ∧ task.pc ≠ .settled (.error .mailboxClosed)

/-- **No call and no tell of the host was rejected because its mailbox was
closed**, and no activation was or is about to be. -/
structure Host.Welcoming (h : Host S Env) : Prop where
  calls : ∀ c task, h.calls c = some task → task.Welcome
  tells : ∀ t task entry, h.tells t = some task → task.pc ≠ .rejected entry .mailboxClosed
  outcomes : ∀ a, h.outcome a ≠ some (.error .mailboxClosed)
  ending : h.activating ≠ some (.finishing (.error .mailboxClosed))

/-- Whatever the loader throws, it is not the error of a mailbox. -/
def HostConfig.LoadsSoundly (cfg : HostConfig S Env Op) : Prop :=
  ∀ load, cfg.loader = some load → ∀ name v, load name v ≠ .error .mailboxClosed

/-- A class that cannot be resolved is no closed mailbox. -/
theorem HostConfig.LoadsSoundly.resolveCtor {cfg : HostConfig S Env Op}
    (h : cfg.LoadsSoundly) {persisted : Option Version} {ok : Bool} {e : HostError}
    (he : cfg.resolveCtor persisted ok = .error e) : e ≠ .mailboxClosed := by
  rintro rfl
  unfold HostConfig.resolveCtor at he
  dsimp only at he
  split at he
  · exact absurd he (by simp)
  split at he
  · exact absurd he (by simp)
  split at he
  · exact absurd he (by simp)
  split at he
  · exact absurd he (by simp)
  split at he
  · exact absurd he (by simp)
  next p _ _ _ _ load hload =>
  split at he
  · cases hl : load cfg.registration.name p with
    | error e =>
      rw [hl] at he
      exact h load hload _ p (hl.trans (congrArg Except.error (Except.error.inj he)))
    | ok c =>
      rw [hl] at he
      exact absurd he (by simp [Except.map])
  · exact absurd he (by simp)

/-- Nor is an event that is none. -/
theorem normalizeEvents_ne_closed {es : List Json} :
    normalizeEvents es ≠ .error .mailboxClosed := by
  have hone : ∀ e, normalizeEvent e ≠ .error .mailboxClosed := by
    intro e
    unfold normalizeEvent
    split
    · simp
    · split
      · split <;> simp
      · simp
  induction es with
  | nil => simp [normalizeEvents]
  | cons e es ih =>
    rw [normalizeEvents]
    cases hw : normalizeEvent e with
    | error x =>
      intro h
      exact hone e (hw.trans (congrArg Except.error (Except.error.inj h)))
    | ok w =>
      cases hws : normalizeEvents es with
      | error x =>
        intro h
        exact ih (hws.trans (congrArg Except.error (Except.error.inj h)))
      | ok ws => simp [bind, Except.bind, pure, Except.pure]

namespace Host.Welcoming

variable {h h' : Host S Env}

/-- The calls, the tells and the activation are where they were. -/
theorem same (hw : h.Welcoming) (hc : h'.calls = h.calls) (ht : h'.tells = h.tells)
    (ho : h'.outcome = h.outcome) (ha : h'.activating = h.activating) :
    h'.Welcoming where
  calls := hc ▸ hw.calls
  tells := ht ▸ hw.tells
  outcomes := ho ▸ hw.outcomes
  ending := ha ▸ hw.ending

/-- The activation goes on. -/
theorem go (hw : h.Welcoming) (hc : h'.calls = h.calls) (ht : h'.tells = h.tells)
    (ho : h'.outcome = h.outcome)
    (ha : h'.activating ≠ some (.finishing (.error .mailboxClosed))) :
    h'.Welcoming where
  calls := hc ▸ hw.calls
  tells := ht ▸ hw.tells
  outcomes := ho ▸ hw.outcomes
  ending := ha

/-- An item is settled. -/
theorem settle (hw : h.Welcoming) (item : Item) {r : Except HostError Json}
    (hr : r ≠ .error .mailboxClosed) (c : ℕ) (task : CallTask)
    (ht : settleItem h.calls item r c = some task) : task.Welcome := by
  cases item with
  | tell type payload id => exact hw.calls c task ht
  | call method args c' =>
    rw [settleItem, Function.update_apply] at ht
    split at ht
    · obtain ⟨old, hold, rfl⟩ := Option.map_eq_some_iff.mp ht
      unfold CallTask.settle
      split
      · exact ⟨by simp, by simpa using hr⟩
      · exact hw.calls c' old hold
    · exact hw.calls c task ht

end Host.Welcoming

namespace Sys

variable {cfg : HostConfig S Env Op} {s s' : Sys S Env Op} {env : Env} {ok : Bool}
  {g : ℕ} {item : Item}

/-! ### A turn -/

theorem welcoming_turnFailed (h : s.host.Welcoming) {e : HostError}
    (he : e ≠ .mailboxClosed) : (s.turnFailed g item e).host.Welcoming :=
  ⟨h.settle item (by simpa using he), h.tells, h.outcomes, h.ending⟩

theorem welcoming_commitEsTail (h : s.host.Welcoming) (events : List Json) :
    (s.commitEsTail cfg g item events).host.Welcoming := by
  unfold commitEsTail
  dsimp only
  split <;> exact h.same rfl rfl rfl rfl

theorem welcoming_resolveCall (h : s.host.Welcoming) (item : Item) (c : ℕ) (r : Json) :
    (s.resolveCall item c r).host.Welcoming :=
  ⟨h.settle item (by simp), h.tells, h.outcomes, h.ending⟩

theorem welcoming_commitEs (h : s.host.Welcoming) (r : Json) :
    (s.commitEs cfg g item r).host.Welcoming := by
  unfold commitEs
  split
  · cases item with
    | call method args c =>
      have hr := welcoming_resolveCall h (.call method args c) c (.arr [])
      exact hr.same rfl rfl rfl rfl
    | tell type payload id => exact h.same rfl rfl rfl rfl
  · split
    · next x hx =>
      exact welcoming_turnFailed h (fun he => normalizeEvents_ne_closed (he ▸ hx))
    · exact h.same rfl rfl rfl rfl
  · exact welcoming_turnFailed h (by simp)

theorem welcoming_commitEsFold (h : s.host.Welcoming) (events : List Json) (seq : ℤ) :
    (s.commitEsFold cfg g item events seq).host.Welcoming := by
  unfold commitEsFold
  split
  · exact welcoming_turnFailed h (by simp)
  · next state _ =>
    have hf : (foldedHost s.host events seq state).Welcoming := h.same rfl rfl rfl rfl
    cases item with
    | call method args c =>
      refine welcoming_commitEsTail (welcoming_resolveCall ?_ (.call method args c) c _) _
      exact hf
    | tell type payload id => exact h.same rfl rfl rfl rfl

theorem welcoming_handle (h : s.host.Welcoming) (env : Env) :
    (s.handle cfg g env item).host.Welcoming := by
  unfold handle
  dsimp only
  split
  · cases item with
    | call method args c =>
      have hc := h.settle (.call method args c)
        (r := .error (.noHandler method cfg.registration.name)) (by simp)
      exact ⟨hc, h.tells, h.outcomes, h.ending⟩
    | tell type payload id => exact h.same rfl rfl rfl rfl
  · exact h.same rfl rfl rfl rfl

theorem welcoming_workerStep (h : s.host.Welcoming)
    (hs : s.workerStep cfg g env ok = some s') : s'.host.Welcoming := by
  have hsame : ∀ {t : Sys S Env Op}, some t = some s' → t.host.calls = s.host.calls →
      t.host.tells = s.host.tells → t.host.outcome = s.host.outcome →
      t.host.activating = s.host.activating → s'.host.Welcoming :=
    fun he hc ht ho ha => Option.some.inj he ▸ h.same hc ht ho ha
  unfold workerStep at hs
  split at hs
  · exact absurd hs (by simp)
  · exact absurd hs (by simp)
  · exact absurd hs (by simp)
  · exact hsame hs rfl rfl rfl rfl
  · exact Option.some.inj hs ▸ welcoming_handle h env
  · exact hsame hs rfl rfl rfl rfl
  · exact hsame hs rfl rfl rfl rfl
  · exact Option.some.inj hs ▸ welcoming_turnFailed h (by simp)
  · split at hs
    · exact Option.some.inj hs ▸ welcoming_commitEs h _
    · next item r _ _ =>
      obtain rfl := Option.some.inj hs
      cases item with
      | call method args c =>
        have hc := welcoming_resolveCall h (.call method args c) c r
        exact hc.same rfl rfl rfl rfl
      | tell type payload id => exact h.same rfl rfl rfl rfl
  · split at hs
    · split at hs
      · exact Option.some.inj hs ▸ welcoming_turnFailed h (by simp)
      · exact hsame hs rfl rfl rfl rfl
    · exact Option.some.inj hs ▸ welcoming_turnFailed h (by simp)
  · exact Option.some.inj hs ▸ welcoming_commitEsFold h _ _
  · next item id after _ =>
    split at hs
    · cases after with
      | swm => exact hsame hs rfl rfl rfl rfl
      | esEmpty => exact hsame hs rfl rfl rfl rfl
      | es events =>
        obtain rfl := Option.some.inj hs
        refine welcoming_commitEsTail ?_ events
        exact h
    · exact Option.some.inj hs ▸ welcoming_turnFailed h (by simp)
  · split at hs
    · exact absurd hs (by simp)
    · exact hsame hs rfl rfl rfl rfl
    · exact Option.some.inj hs ▸ welcoming_turnFailed h (by simp)
  · exact hsame hs rfl rfl rfl rfl
  · exact hsame hs rfl rfl rfl rfl

/-! ### An activation -/

theorem welcoming_activate (h : s.host.Welcoming) :
    (s.activate cfg).host.Welcoming := by
  unfold activate
  split
  · exact h
  split
  · exact h
  · unfold beginActivation
    dsimp only
    split <;> exact h.go rfl rfl rfl (by simp [setActivating])

theorem welcoming_activationFailed (h : s.host.Welcoming) {e : HostError}
    (he : e ≠ .mailboxClosed) : (s.activationFailed e).host.Welcoming :=
  h.go rfl rfl rfl (by simpa [activationFailed, setActivating] using he)

theorem welcoming_beginOnActivate (h : s.host.Welcoming) (env : Env) :
    (s.beginOnActivate env).host.Welcoming := by
  unfold beginOnActivate
  split <;> exact h.go rfl rfl rfl (by simp [setActivating, becomeActivated])

theorem welcoming_beginReplay (h : s.host.Welcoming) (env : Env) :
    (s.beginReplay env).host.Welcoming := by
  unfold beginReplay
  split
  · exact h.go rfl rfl rfl (by simp [setActivating])
  · exact welcoming_beginOnActivate h env

theorem welcoming_beginOnInit (h : s.host.Welcoming) (env : Env) :
    (s.beginOnInit env).host.Welcoming := by
  unfold beginOnInit
  split
  · refine welcoming_beginReplay ?_ env
    exact h
  · exact h.go rfl rfl rfl (by simp [setActivating])

theorem welcoming_beginMigrate (h : s.host.Welcoming) (prev : SnapshotRead S) :
    (s.beginMigrate prev).host.Welcoming := by
  unfold beginMigrate
  split <;> exact h.go rfl rfl rfl (by simp [setActivating])

theorem welcoming_migrated (h : s.host.Welcoming) (x : S) :
    (s.migrated x).host.Welcoming := by
  unfold migrated
  dsimp only
  split <;> exact h.go rfl rfl rfl (by simp [setActivating])

theorem welcoming_replay (h : s.host.Welcoming) (env : Env) :
    (s.replay cfg env).host.Welcoming := by
  unfold replay
  dsimp only
  split
  · exact h.go rfl rfl rfl (by simp [setActivating, activationFailed])
  · split
    · exact h.go rfl rfl rfl (by simp [setActivating])
    · refine welcoming_beginOnActivate ?_ env
      exact h.same rfl rfl rfl rfl

/-- **An open mailbox takes all that is replayed**, or drops it. -/
theorem enqueueAll_ok (h : s.host.mailbox.closed = false) (rs : List InboxRecord) :
    (s.enqueueAll rs).1 = .ok () := by
  induction rs generalizing s with
  | nil => rfl
  | cons r rs ih =>
    rw [enqueueAll]
    split
    · next hr => exact absurd hr (Mailbox.enqueue_open h _).1
    · exact ih (Mailbox.enqueue_open h _).2

theorem welcoming_enqueueAll (h : s.host.Welcoming) (rs : List InboxRecord) :
    (s.enqueueAll rs).2.host.Welcoming := by
  induction rs generalizing s with
  | nil => exact h
  | cons r rs ih =>
    rw [enqueueAll]
    split
    · exact h
    · exact ih (h.same rfl rfl rfl rfl)

/-- **An activation fails of a closed mailbox only where it replays the inbox
into one.** -/
theorem welcoming_actStep (hcfg : cfg.LoadsSoundly) (h : s.host.Welcoming)
    (hopen : ∀ pending, s.host.activating = some (.replayInbox pending) →
      pending = [] ∨ s.host.mailbox.closed = false)
    (hs : s.actStep cfg env ok = some s') : s'.host.Welcoming := by
  have hgo : ∀ {t : Sys S Env Op} {pc : ActPc S Env}, some (t.setActivating pc) = some s' →
      t.host.Welcoming → pc ≠ .finishing (.error .mailboxClosed) → s'.host.Welcoming :=
    fun he ht hpc => Option.some.inj he ▸ ht.go rfl rfl rfl (by
      simpa [setActivating] using hpc)
  have hfail : ∀ {e : HostError}, some (s.activationFailed e) = some s' →
      e ≠ .mailboxClosed → s'.host.Welcoming :=
    fun hs he => Option.some.inj hs ▸ welcoming_activationFailed h he
  have hrun : ∀ {t : Sys S Env Op}, some t = some s' → t.host.Welcoming →
      s'.host.Welcoming := fun he ht => Option.some.inj he ▸ ht
  unfold actStep at hs
  split at hs
  · exact absurd hs (by simp)
  · split at hs
    · exact hgo hs h (by simp)
    · exact hfail hs (by simp)
  · split at hs
    · next e he => exact hfail hs (hcfg.resolveCtor he)
    · exact hgo hs (h.same rfl rfl rfl rfl) (by simp)
  · split at hs
    · exact hgo hs (h.same rfl rfl rfl rfl) (by simp)
    · exact hfail hs (by simp)
  · split at hs
    · dsimp only at hs
      split at hs
      · refine hrun hs (welcoming_beginMigrate ?_ _)
        exact h.same rfl rfl rfl rfl
      · refine hrun hs (welcoming_beginReplay ?_ env)
        exact h.same rfl rfl rfl rfl
    · exact hfail hs (by simp)
  · split at hs
    · dsimp only at hs
      split at hs
      · refine hrun hs (welcoming_beginOnInit ?_ env)
        exact h.same rfl rfl rfl rfl
      · refine hrun hs (welcoming_beginOnInit ?_ env)
        exact h
    · exact hfail hs (by simp)
  · exact hgo hs (h.same rfl rfl rfl rfl) (by simp)
  · exact hfail hs (by simp)
  · exact hrun hs (welcoming_beginReplay h env)
  · exact hrun hs (welcoming_beginReplay h env)
  · split at hs
    · exact absurd hs (by simp)
    · exact hgo hs h (by simp)
    · exact hfail hs (by simp)
  · split at hs
    · exact absurd hs (by simp)
    · split at hs
      · exact hfail hs (by simp)
      · exact hrun hs (welcoming_migrated h _)
  · split at hs
    · exact absurd hs (by simp)
    · exact hgo hs (h.same rfl rfl rfl rfl) (by simp)
    · exact hfail hs (by simp)
  · split at hs
    · exact hrun hs (welcoming_beginReplay h env)
    · exact hfail hs (by simp)
  · split at hs
    · split at hs
      · exact hrun hs (welcoming_beginOnActivate h env)
      · exact hgo hs h (by simp)
    · exact hfail hs (by simp)
  · split at hs
    · exact hrun hs (welcoming_replay h env)
    · exact hfail hs (by simp)
  · split at hs
    · exact absurd hs (by simp)
    · refine hrun hs (welcoming_beginOnActivate ?_ env)
      exact h.same rfl rfl rfl rfl
    · exact hfail hs (by simp)
  · exact hgo hs (h.same rfl rfl rfl rfl) (by simp)
  · exact hfail hs (by simp)
  · exact hrun hs (h.go rfl rfl rfl (by simp [becomeActivated, setActivating]))
  · split at hs
    · exact hgo hs h (by simp)
    · exact hfail hs (by simp)
  · next pending hp =>
    have hok : (s.enqueueAll pending).1 = .ok () := by
      rcases hopen pending hp with rfl | hc
      · rfl
      · exact enqueueAll_ok hc pending
    exact hgo hs (welcoming_enqueueAll h pending) (by simp [hok])
  · next o ho =>
    obtain rfl := Option.some.inj hs
    refine ⟨h.calls, h.tells, fun a => ?_, by simp⟩
    have hne : o ≠ .error .mailboxClosed := fun he => h.ending (by rw [ho, he])
    show update s.host.outcome s.host.activation (some o) a ≠ _
    rw [Function.update_apply]
    split
    · simpa using hne
    · exact h.outcomes a

/-! ### A deactivation -/

theorem welcoming_beginOnDeactivate (h : s.host.Welcoming) (env : Env) (idle : Bool) :
    (s.beginOnDeactivate env idle).host.Welcoming := by
  unfold beginOnDeactivate
  split <;> exact h.same rfl rfl rfl rfl

theorem welcoming_beginFinalFlush (h : s.host.Welcoming) (env : Env) (idle : Bool) :
    (s.beginFinalFlush env idle).host.Welcoming := by
  unfold beginFinalFlush
  dsimp only
  split
  · exact h.same rfl rfl rfl rfl
  · refine welcoming_beginOnDeactivate ?_ env idle
    exact h.same rfl rfl rfl rfl

theorem welcoming_deactivate (h : s.host.Welcoming) (env : Env) (idle : Bool) :
    (s.deactivate env idle).host.Welcoming := by
  unfold deactivate
  split
  · exact h
  split
  · exact h
  dsimp only
  split
  · exact h.same rfl rfl rfl rfl
  · refine welcoming_beginFinalFlush ?_ env idle
    exact h.same rfl rfl rfl rfl

theorem welcoming_deactStep (h : s.host.Welcoming) (hs : s.deactStep env = some s') :
    s'.host.Welcoming := by
  unfold deactStep at hs
  split at hs
  · exact absurd hs (by simp)
  · split at hs
    · exact Option.some.inj hs ▸ welcoming_beginFinalFlush h env _
    · exact absurd hs (by simp)
  · split at hs
    · exact absurd hs (by simp)
    · obtain rfl := Option.some.inj hs
      refine welcoming_beginOnDeactivate ?_ env _
      exact h.same rfl rfl rfl rfl
    · exact Option.some.inj hs ▸ h.same rfl rfl rfl rfl
  · exact Option.some.inj hs ▸ h.same rfl rfl rfl rfl
  · exact Option.some.inj hs ▸ h.same rfl rfl rfl rfl
  · exact Option.some.inj hs ▸ h.same rfl rfl rfl rfl
  · exact Option.some.inj hs ▸ h.same rfl rfl rfl rfl

/-! ### Requests -/

theorem welcoming_setCall (h : s.host.Welcoming) (c : ℕ) {task : CallTask}
    (ht : task.Welcome) : (s.setCall c task).host.Welcoming where
  calls c' task' ht' := by
    change update s.host.calls c (some task) c' = some task' at ht'
    rw [Function.update_apply] at ht'
    split at ht'
    · exact Option.some.inj ht' ▸ ht
    · exact h.calls c' task' ht'
  tells := h.tells
  outcomes := h.outcomes
  ending := h.ending

theorem welcoming_setTell (h : s.host.Welcoming) (t : ℕ) {task : TellTask}
    (ht : ∀ entry, task.pc ≠ .rejected entry .mailboxClosed) :
    (s.setTell t task).host.Welcoming where
  calls := h.calls
  tells t' task' entry ht' := by
    change update s.host.tells t (some task) t' = some task' at ht'
    rw [Function.update_apply] at ht'
    split at ht'
    · exact Option.some.inj ht' ▸ ht entry
    · exact h.tells t' task' entry ht'
  outcomes := h.outcomes
  ending := h.ending

/-- A call that is put into an open mailbox is not turned away. -/
theorem welcoming_callEnqueue (h : s.host.Welcoming) (hopen : s.host.mailbox.closed = false)
    (c : ℕ) (method : String) (args : Json) :
    (s.callEnqueue c method args).host.Welcoming := by
  unfold callEnqueue
  split
  · exact welcoming_setCall h c ⟨by simp, by simp⟩
  split
  · next hr => exact absurd hr (Mailbox.enqueue_open hopen _).1
  · exact welcoming_setCall h c ⟨by simp, by simp⟩
  · refine welcoming_setCall ?_ c ⟨by simp, by simp⟩
    exact h.same rfl rfl rfl rfl

theorem welcoming_tellEnqueue (h : s.host.Welcoming) (hopen : s.host.mailbox.closed = false)
    (t : ℕ) (type : String) (payload : Json) (id : ℕ) :
    (s.tellEnqueue t type payload id).host.Welcoming := by
  unfold tellEnqueue
  dsimp only
  split
  · next hr => exact absurd hr (Mailbox.enqueue_open hopen _).1
  · refine welcoming_setTell ?_ t (by simp)
    exact h.same rfl rfl rfl rfl
  · refine welcoming_setTell ?_ t (by simp)
    exact h.same rfl rfl rfl rfl

end Sys

/-- The host takes messages: it is activated and not being deactivated, or it is
on its way to be activated. -/
def Host.receptive (h : Host S Env) : Bool :=
  h.activated && h.deactivating.isNone
    || match h.activating.map ActPc.phase with
      | some .loading => true
      | some .opening => true
      | _ => false

/-- What the step at hand is to put into the mailbox finds the host receptive. -/
def Host.receives (h : Host S Env) : Act Env → Bool
  | .callStart _ _ _ => !h.activated || h.deactivating.isNone
  | .callResume c =>
    match h.calls c with
    | some ⟨_, _, .awaitActivate a⟩ =>
      match h.outcome a with
      | some (.ok _) => h.receptive
      | _ => true
    | _ => true
  | .tellResume t =>
    match h.tells t with
    | some ⟨_, _, .appended _⟩ => h.receptive
    | _ => true
  | .activation _ _ =>
    match h.activating with
    | some (.replayInbox pending) => pending.isEmpty || h.receptive
    | _ => true
  | _ => true

namespace Sys

variable {cfg : HostConfig S Env Op} {s s' : Sys S Env Op}

/-- Such a host has an open mailbox. -/
theorem open_of_receptive (hl : Lifecycle s.flow.toLife) (h : s.host.receptive = true) :
    s.host.mailbox.closed = false := by
  unfold Host.receptive at h
  rcases Bool.or_eq_true_iff.mp h with h | h
  · obtain ⟨ha, hd⟩ := Bool.and_eq_true_iff.mp h
    exact hl.attended ha (by simp [flow, Option.isNone_iff_eq_none.mp hd])
  · refine (hl.early ?_).2
    show (s.host.activating.map ActPc.phase).getD .idle = .loading
      ∨ (s.host.activating.map ActPc.phase).getD .idle = .opening
    split at h
    · next hp => exact .inl (by rw [hp]; rfl)
    · next hp => exact .inr (by rw [hp]; rfl)
    · exact absurd h (by simp)

/-- **A host turns nobody away while it is receptive whenever it is given
something.** -/
theorem welcoming_step {a : Act Env} (hcfg : cfg.LoadsSoundly)
    (hl : Lifecycle s.flow.toLife) (h : s.host.Welcoming)
    (hG : s.host.receives a = true) (hs : s.step cfg a = some s') :
    s'.host.Welcoming := by
  cases a with
  | activate => exact Option.some.inj hs ▸ welcoming_activate h
  | tellStart t type payload =>
    rw [step, tellStart] at hs
    split at hs
    · exact absurd hs (by simp)
    split at hs
    · exact Option.some.inj hs ▸ welcoming_setTell h t (by simp)
    split at hs
    · exact Option.some.inj hs ▸ welcoming_setTell h t (by simp)
    · exact Option.some.inj hs ▸ welcoming_setTell (welcoming_activate h) t (by simp)
  | tellLand t ok =>
    rw [step, tellLand] at hs
    split at hs
    · split at hs
      · obtain rfl := Option.some.inj hs
        refine welcoming_setTell ?_ t (by simp)
        exact h
      · exact Option.some.inj hs ▸ welcoming_setTell h t (by simp)
    · dsimp only at hs
      split at hs
      · obtain rfl := Option.some.inj hs
        refine welcoming_setTell ?_ t (by simp)
        exact h
      · obtain rfl := Option.some.inj hs
        refine welcoming_setTell ?_ t (by simp)
        exact h
    · exact absurd hs (by simp)
  | tellResume t =>
    rw [step, tellResume] at hs
    split at hs
    · next type payload a ht =>
      split at hs
      · exact absurd hs (by simp)
      · exact Option.some.inj hs ▸ welcoming_setTell h t (by simp)
      · next e he =>
        refine Option.some.inj hs ▸ welcoming_setTell h t (fun entry hr => ?_)
        obtain ⟨-, rfl⟩ := TellPc.rejected.inj hr
        exact h.outcomes a he
    · next type payload id ht =>
      have hr : s.host.receptive = true := by simpa [Host.receives, ht] using hG
      exact Option.some.inj hs
        ▸ welcoming_tellEnqueue h (open_of_receptive hl hr) t type payload id
    · exact absurd hs (by simp)
  | callStart c method args =>
    rw [step, callStart] at hs
    split at hs
    · exact absurd hs (by simp)
    split at hs
    · exact Option.some.inj hs ▸ welcoming_setCall h c ⟨by simp, by simp⟩
    split at hs
    · next ha =>
      have hr : s.host.receptive = true := by
        simp only [Host.receives, ha, Bool.not_true, Bool.false_or] at hG
        simp [Host.receptive, ha, hG]
      exact Option.some.inj hs
        ▸ welcoming_callEnqueue h (open_of_receptive hl hr) c method args
    · exact Option.some.inj hs
        ▸ welcoming_setCall (welcoming_activate h) c ⟨by simp, by simp⟩
  | callResume c =>
    rw [step, callResume] at hs
    split at hs
    · next method args a hc =>
      split at hs
      · exact absurd hs (by simp)
      · next ho =>
        have hr : s.host.receptive = true := by simpa [Host.receives, hc, ho] using hG
        exact Option.some.inj hs
          ▸ welcoming_callEnqueue h (open_of_receptive hl hr) c method args
      · next e he =>
        refine Option.some.inj hs ▸ welcoming_setCall h c ⟨fun hr => ?_, by simp⟩
        obtain rfl := CallPc.refused.inj hr
        exact h.outcomes a he
    · exact absurd hs (by simp)
  | activation env ok =>
    refine welcoming_actStep hcfg h (fun pending hp => ?_) hs
    have hr : pending.isEmpty = true ∨ s.host.receptive = true := by
      simpa [Host.receives, hp] using hG
    exact hr.imp List.isEmpty_iff.mp (open_of_receptive hl)
  | worker g env ok => exact welcoming_workerStep h hs
  | deactivate env => exact Option.some.inj hs ▸ welcoming_deactivate h env false
  | deactivation env => exact welcoming_deactStep h hs
  | destroy env =>
    obtain rfl := Option.some.inj hs
    unfold destroy
    split
    · exact h
    · refine welcoming_deactivate ?_ env false
      exact h.same rfl rfl rfl rfl
  | idleFire env =>
    rw [step] at hs
    split at hs
    · obtain rfl := Option.some.inj hs
      unfold deactivateForIdle
      split
      · exact h.same rfl rfl rfl rfl
      · split
        · exact h.same rfl rfl rfl rfl
        · refine welcoming_deactivate ?_ env true
          exact h.same rfl rfl rfl rfl
    · exact absurd hs (by simp)
  | idleEvict =>
    rw [step] at hs
    split at hs
    · exact Option.some.inj hs ▸ h.same rfl rfl rfl rfl
    · exact absurd hs (by simp)
  | snapshotFire =>
    rw [step, snapshotFire] at hs
    split at hs
    · dsimp only at hs
      split at hs <;> exact Option.some.inj hs ▸ h.same rfl rfl rfl rfl
    · exact absurd hs (by simp)
  | flushResume k =>
    rw [step, flushResume] at hs
    split at hs
    · dsimp only at hs
      split at hs
      · exact absurd hs (by simp)
      · exact Option.some.inj hs ▸ h.same rfl rfl rfl rfl
      · exact Option.some.inj hs ▸ h.same rfl rfl rfl rfl
    · exact absurd hs (by simp)
  | save k ok =>
    rw [step, saveStep] at hs
    split at hs
    · split at hs <;> exact Option.some.inj hs ▸ h.same rfl rfl rfl rfl
    · split at hs <;> exact Option.some.inj hs ▸ h.same rfl rfl rfl rfl
    · exact absurd hs (by simp)
  | subscribe l =>
    rw [step, subscribe] at hs
    split at hs
    · exact absurd hs (by simp)
    · exact Option.some.inj hs ▸ h.same rfl rfl rfl rfl
  | unsubscribe l => exact Option.some.inj hs ▸ h.same rfl rfl rfl rfl
  | notifyTombstone => exact Option.some.inj hs ▸ h.same rfl rfl rfl rfl

end Sys

/-! ## In a process

The same for a request of a process, which reaches its host by a reference
that was resolved earlier. -/

/-- A call that a host knows it knew before, or it is being made. -/
theorem HostFlow.Moves.called {Env : Type} {f f' : HostFlow} {a : Act Env}
    (hs : f.Moves f' a) (hl : Lifecycle f.toLife) {c : ℕ} (h : f'.calls c ≠ none) :
    f.calls c ≠ none ∨ ∃ method args, a = .callStart c method args := by
  have opening : ∀ {f₁ : HostFlow}, f.Opening f₁ → f₁.calls = f.calls := by
    intro f₁ ho
    cases ho <;> rfl
  have closing : f.Closing f' → f'.calls = f.calls := by
    intro hc
    cases hc with
    | unattended _ hd ha hg => exact absurd hg (hl.present ha (by simp [hd])).1
    | _ => rfl
  have calling : ∀ {c' : ℕ} {calls : ℕ → Option CallTask} {task : CallTask},
      update calls c' (some task) c ≠ none → c = c' ∨ calls c ≠ none := by
    intro c' calls task hne
    rw [Function.update_apply] at hne
    split at hne
    · next he => exact .inl he
    · exact .inr hne
  have same : f'.calls = f.calls → f.calls c ≠ none ∨ ∃ method args,
      a = .callStart c method args := fun he => .inl (he ▸ h)
  cases a with
  | activate => exact same (opening hs)
  | tellStart t type payload =>
    obtain ⟨-, f₁, task, ho, -, rfl⟩ := hs
    have hcalls := opening ho
    exact same hcalls
  | tellLand t ok => exact same (by cases hs <;> rfl)
  | tellResume t => exact same (by cases hs <;> rfl)
  | callStart c' method args =>
    have hself : c = c' ∨ f.calls c ≠ none := by
      obtain ⟨-, ⟨-, hc⟩ | ⟨f₁, task, ho, -, rfl⟩⟩ := hs
      · cases hc <;> exact calling h
      · exact (calling h).imp_right (fun h => opening ho ▸ h)
    rcases hself with rfl | hold
    · exact .inr ⟨method, args, rfl⟩
    · exact .inl hold
  | callResume c' =>
    obtain ⟨⟨task, ht, -⟩, hc⟩ := hs
    have hself : c = c' ∨ f.calls c ≠ none := by cases hc <;> exact calling h
    rcases hself with rfl | hold
    · exact .inl (by rw [ht]; simp)
    · exact .inl hold
  | activation env ok =>
    refine same ?_
    cases hs with
    | replayed hp => rw [HostFlow.enqueueAll_frame]
    | _ => rfl
  | worker g env ok =>
    have settle : ∀ (item : Item) (r : Except HostError Json),
        settleItem f.calls item r c ≠ none → f.calls c ≠ none := by
      intro item r hne hn
      cases item with
      | tell type payload id => exact hne hn
      | call method args c' =>
        rw [settleItem, Function.update_apply] at hne
        split at hne
        · next he => exact hne (by rw [← he, hn]; rfl)
        · exact hne hn
    cases hs with
    | @refuse m x c' e hg => exact .inl (settle (.call m x c') (.error e) h)
    | @resolve m x c' r hg => exact .inl (settle (.call m x c') (.ok r) h)
    | @fail item e hg => exact .inl (settle item (.error e) h)
    | _ => exact .inl h
  | deactivate env => exact same (closing hs)
  | deactivation env => exact same (by cases hs <;> rfl)
  | destroy env => exact same (closing hs)
  | idleFire env => exact same (closing hs)
  | flushResume k =>
    obtain ⟨es, rfl⟩ := hs
    exact .inl h
  | _ =>
    obtain rfl := hs
    exact .inl h

namespace Runtime

variable {cfg : RuntimeConfig S Env Op} {rt rt' : Runtime S Env Op} {q r : ℕ}
  {ask : Ask} {o : HostObject S Env Op} {x : RuntimeAct Env}

/-- A request in `host.call` has not left it. -/
theorem Moves.calling (h : Moves cfg rt x rt')
    (hq : rt.requests q = some ⟨ask, .calling r⟩) :
    rt'.requests q = some ⟨ask, .calling r⟩ := by
  have hset : ∀ {t : Runtime S Env Op} {q' ask' pc'}, t.requests = rt.requests →
      (∀ r', rt.requests q' ≠ some ⟨ask, .calling r'⟩) →
      (t.setRequest q' ask' pc').requests q = some ⟨ask, .calling r⟩ := by
    intro t q' ask' pc' ht hne
    have he : q ≠ q' := by
      rintro rfl
      exact hne r hq
    rw [requests_setRequest_ne he, ht, hq]
  cases h with
  | answer ha =>
    refine hset rfl (fun r' hr' => ?_)
    cases ha <;> exact absurd (hr'.symm.trans ‹_›) (by simp)
  | materialize hn => exact hset rfl (by simp [hn])
  | @install q' ask' ok r' o result hq' ho hr =>
    cases result with
    | ok _ => exact hset rfl (by simp [hq'])
    | error e => exact hset rfl (by simp [hq'])
  | serve ho hserve hs =>
    refine hset rfl (fun r' hr' => ?_)
    cases hserve <;> exact absurd (hr'.symm.trans ‹_›) (by simp)
  | @tombstone q' admitted id p r' o s hn hh ho hs =>
    have he : q ≠ q' := by
      rintro rfl
      exact absurd (hn.symm.trans hq) (by simp)
    rw [requests_setRequest_ne he]
    simp only [detachAll, requests_setSys, hq]
  | tombstoned hq' => exact hset rfl (by simp [hq'])
  | own => exact hq
  | evict =>
    rw [requests_evict]
    exact hq
  | unsubscribe hq' ho hs => exact hset rfl (by simp [hq'])
  | shutdown => exact hq
  | destroyHosts hd => exact hq

/-- **What a process keeps of its calls**: each enters one mailbox, once, and is
made by the request of its number, on one object. -/
structure Serving (rt : Runtime S Env Op) : Prop where
  fifo : ∀ r o, rt.objects r = some o → Fifo (rt.sys o).flow
  once : ∀ r o, rt.objects r = some o → (rt.sys o).flow.Once
  called : ∀ r o c, rt.objects r = some o → o.host.calls c ≠ none →
    ∃ ask, rt.requests c = some ⟨ask, .calling r⟩

namespace Serving

/-- A host that is constructed begins with no call. -/
theorem of_new (hcfg : HostConfig S Env Op) (store : ActorStore S) :
    let s : Sys S Env Op := (Sys.init hcfg store).activate hcfg
    Fifo s.flow ∧ s.flow.Once ∧ ∀ c, s.host.calls c = none := by
  intro s
  have hl : Lifecycle (Sys.init hcfg store : Sys S Env Op).flow.toLife := .init hcfg store
  have hm := Sys.flow_activate hcfg (Sys.init hcfg store)
  have hs : (Sys.init hcfg store).flow.Moves s.flow (.activate : Act Env) := hm
  have hone : (Sys.init hcfg store : Sys S Env Op).flow.Once :=
    ⟨List.nodup_nil, fun c hc => absurd hc (by simp [Sys.init, Sys.flow, History.init])⟩
  refine ⟨(Fifo.init hcfg store).of_opening hl hm, hone.of_moves hl hs, fun c => ?_⟩
  by_contra hne
  rcases hs.called hl (c := c) hne with h | ⟨method, args, h⟩
  · exact h rfl
  · exact absurd h (by simp)

theorem init (stores : ActorId → ActorStore S) :
    (Runtime.init stores : Runtime S Env Op).Serving where
  fifo r o ho := absurd ho (by simp [Runtime.init])
  once r o ho := absurd ho (by simp [Runtime.init])
  called r o c ho := absurd ho (by simp [Runtime.init])

/-- **Every step keeps to it.** -/
theorem step (h : rt.Serving) (hrt : rt.Sound) (hs : rt.step cfg x = some rt') :
    rt'.Serving := by
  have hm := step_moves hs
  refine ⟨fun r o' ho' => ?_, fun r o' ho' => ?_, fun r o' c ho' hc => ?_⟩
  · rcases hm.does ho' with ho | ⟨o, a, s, ho, -, hs, rfl⟩ | ⟨-, id, registration, rfl⟩
    · exact (h.fifo r o' ho).frame rfl rfl rfl rfl
    · have hf := (h.fifo r o ho).of_moves (hrt.lifecycle r o ho) (Sys.flow_step hs)
      exact hf.frame rfl rfl rfl rfl
    · exact (of_new _ _).1.frame rfl rfl rfl rfl
  · rcases hm.does ho' with ho | ⟨o, a, s, ho, -, hs, rfl⟩ | ⟨-, id, registration, rfl⟩
    · exact (h.once r o' ho).frame rfl rfl
    · have hf := (h.once r o ho).of_moves (hrt.lifecycle r o ho) (Sys.flow_step hs)
      exact hf.frame rfl rfl
    · exact (of_new _ _).2.1.frame rfl rfl
  · have hold : ∀ {o : HostObject S Env Op}, rt.objects r = some o →
        o.host.calls c ≠ none → ∃ ask, rt'.requests c = some ⟨ask, .calling r⟩ := by
      intro o ho hc
      obtain ⟨ask, hq⟩ := h.called r o c ho hc
      exact ⟨ask, hm.calling hq⟩
    rcases hm.does ho' with ho | ⟨o, a, s, ho, hd, hs, rfl⟩ | ⟨-, id, registration, rfl⟩
    · exact hold ho hc
    · rcases (Sys.flow_step hs).called (hrt.lifecycle r o ho) hc with hc | ⟨method, args, rfl⟩
      · exact hold ho hc
      · -- the call is being made, by the request of its number
        cases hd with
        | serve hserve hq =>
          cases hserve with
          | call hq' hp => exact ⟨_, hq⟩
          | hostCall hq' hr => exact ⟨_, hq⟩
        | own ha hx => exact absurd ha (by simp [Act.own])
    · exact absurd ((of_new _ _).2.2 c) hc

end Serving

/-- The step has call `q` handled. -/
def handles (q : ℕ) (rt : Runtime S Env Op) : RuntimeAct Env → Bool
  | .host r (.worker g _ _) =>
    (rt.objects r).any (fun o =>
      match o.host.workers g with
      | .received (.call _ _ c) => c == q
      | _ => false)
  | _ => false

theorem hands_of_handles (h : rt.handles q x = true) :
    ∃ r g env ok o, x = .host r (.worker g env ok) ∧ rt.objects r = some o
      ∧ (rt.sys o).flow.Hands g q := by
  unfold handles at h
  split at h
  · next r g env ok =>
    obtain ⟨o, ho, h⟩ := (Option.any_eq_true _ _).mp h
    refine ⟨r, g, env, ok, o, rfl, ho, ?_⟩
    split at h
    · next method args c hg =>
      obtain rfl := beq_iff_eq.mp h
      exact ⟨method, args, congrArg WorkerPc.stage hg⟩
    · exact absurd h (by simp)
  · exact absurd h (by simp)

/-- Call `q` was handled, and is over with. -/
def Handled (q : ℕ) (rt : Runtime S Env Op) : Prop :=
  ∃ r o ask, rt.objects r = some o ∧ rt.requests q = some ⟨ask, .calling r⟩
    ∧ (rt.sys o).flow.Spent q

/-- Who has a call in hand has accepted it, as its request says. -/
theorem Serving.requested (h : rt.Serving) {g : ℕ} (ho : rt.objects r = some o)
    (hg : (rt.sys o).flow.Hands g q) : ∃ ask, rt.requests q = some ⟨ask, .calling r⟩ := by
  obtain ⟨method, args, hw⟩ := hg
  have hmem : q ∈ callIds (rt.sys o).flow.accepted := by
    rw [(h.fifo r o ho).received g _ hw]
    simp [callIds, Item.callId?]
  obtain ⟨task, ht, -⟩ := (h.once r o ho).entered q hmem
  have ht : o.host.calls q = some task := ht
  exact h.called r o q ho (by simp [ht])

theorem Handled.step (h : rt.Handled q) (hrt : rt.Sound) (hs : rt.step cfg x = some rt') :
    rt'.Handled q := by
  obtain ⟨r, o, ask, ho, hq, hspent⟩ := h
  have hm := step_moves hs
  obtain ⟨o', ho', -⟩ := hm.object_kept (hrt.bound r o ho) ho
  refine ⟨r, o', ask, ho', hm.calling hq, ?_⟩
  rcases hm.does ho' with ho₁ | ⟨o₁, a, s, ho₁, -, hs, rfl⟩ | ⟨hr, -⟩
  · obtain rfl := Option.some.inj (ho.symm.trans ho₁)
    exact hspent.frame rfl rfl rfl
  · obtain rfl := Option.some.inj (ho.symm.trans ho₁)
    have hsp := hspent.of_moves (hrt.lifecycle r o ho) (Sys.flow_step hs)
    exact hsp.frame rfl rfl rfl
  · exact absurd (hrt.bound r o ho) (by omega)

/-- Who handles a call is through with it. -/
theorem Handled.of_handles (h : rt.Serving) (hrt : rt.Sound) (hq : rt.handles q x = true)
    (hs : rt.step cfg x = some rt') : rt'.Handled q := by
  obtain ⟨r, g, env, ok, o, rfl, ho, hg⟩ := hands_of_handles hq
  obtain ⟨ask, hask⟩ := h.requested ho hg
  have hs' : rt.hostStep r (.worker g env ok) = some rt' := by
    simpa [Runtime.step, hostAct, ho, Act.own] using hs
  obtain ⟨o', s, ho', hstep, rfl⟩ := hostStep_eq hs'
  obtain rfl := Option.some.inj (ho.symm.trans ho')
  have hsp := HostFlow.Working.spent (Sys.flow_step hstep) hg (hrt.lifecycle r o ho)
    (h.once r o ho) (h.fifo r o ho)
  exact ⟨r, _, ask, objects_setSys_self, hask, hsp.frame rfl rfl rfl⟩

/-- **A call is handled at most once**, in any run. -/
theorem handled_once (cfg : RuntimeConfig S Env Op) (stores : ActorId → ActorStore S)
    (q : ℕ) (xs : List (RuntimeAct Env)) :
    TransitionSystem.count (step cfg) (handles q) (init stores) xs ≤ 1 := by
  refine TransitionSystem.count_le_one (step cfg) (P := fun rt => rt.Sound ∧ rt.Serving)
    (Q := Handled q) (fun _ _ _ h hs => ⟨h.1.step hs, h.2.step h.1 hs⟩)
    (fun _ _ _ h hq hs => .of_handles h.2 h.1 hq hs) (fun _ _ _ h hq hs => hq.step h.1 hs)
    (fun rt x rt' h hq hs => ?_) ⟨.init stores, .init stores⟩ xs
  by_contra hne
  obtain ⟨r, g, env, ok, o, rfl, ho, hg⟩ := hands_of_handles (by simpa using hne)
  obtain ⟨r', o', ask', ho', hq', hspent⟩ := hq
  obtain ⟨ask, hask⟩ := h.2.requested ho hg
  obtain ⟨-, hr⟩ := AskTask.mk.inj (Option.some.inj (hask.symm.trans hq'))
  obtain rfl := AskPc.calling.inj hr
  obtain rfl := Option.some.inj (ho.symm.trans ho')
  exact hspent.not_hands (h.2.once r o ho) (h.2.fifo r o ho) hg

/-- **What the step puts into a mailbox finds its host receptive**: activated and
not being deactivated, or on its way to be activated. -/
def receives (cfg : RuntimeConfig S Env Op) (rt : Runtime S Env Op) :
    RuntimeAct Env → Bool
  | .start q (.hostCall of method args) _ =>
    (rt.returnedTo of).all (fun r =>
      (rt.objects r).all (fun o => o.host.receives (.callStart q method args : Act Env)))
  | .resume q _ =>
    match rt.requests q with
    | some ⟨.call c id method args p, .resolved r⟩ =>
      (rt.objects r).all (fun o => refuses cfg o (.call c id method args p)
        || o.host.receives (.callStart q method args : Act Env))
    | _ => true
  | .host r a => (rt.objects r).all (fun o => o.host.receives a)
  | _ => true

/-- **The deactivation of hosts does not show**: no call or tell was rejected
because a mailbox was closed, and a worker has the instance that its activation
constructed for as long as it runs. -/
structure Transparent (rt : Runtime S Env Op) : Prop where
  calls : ∀ r o c task, rt.objects r = some o → o.host.calls c = some task → task.Welcome
  tells : ∀ r o t task entry, rt.objects r = some o → o.host.tells t = some task →
    task.pc ≠ .rejected entry .mailboxClosed
  requests : ∀ q ask, rt.requests q ≠ some ⟨ask, .rejected (.host .mailboxClosed)⟩
  present : ∀ r o g, rt.objects r = some o →
    (o.host.workers g).stage.alive = true → o.host.inst = some g

/-- What keeps requests from being turned away. -/
structure Open (rt : Runtime S Env Op) : Prop where
  loads : ∀ r o, rt.objects r = some o → o.cfg.LoadsSoundly
  hosts : ∀ r o, rt.objects r = some o → o.host.Welcoming
  requests : ∀ q ask, rt.requests q ≠ some ⟨ask, .rejected (.host .mailboxClosed)⟩

namespace Open

theorem init (stores : ActorId → ActorStore S) :
    (Runtime.init stores : Runtime S Env Op).Open where
  loads r o ho := absurd ho (by simp [Runtime.init])
  hosts r o ho := absurd ho (by simp [Runtime.init])
  requests q ask := by simp [Runtime.init]

/-- What a step has a host do finds it receptive. -/
theorem receives_of_does (hG : rt.receives cfg x = true) (ho : rt.objects r = some o)
    {a : Act Env} (hd : Does cfg rt rt' x r o a) : o.host.receives a = true := by
  cases hd with
  | serve hserve hq' =>
    cases hserve with
    | call hq hp =>
      simpa [receives, hq, ho, refuses, hp, Except.isOk, Except.toBool] using hG
    | hostCall hq hr => simpa [receives, hr, ho] using hG
    | tell hq hp => rfl
    | subscribe hq => rfl
    | hostTell hq hr => rfl
  | own ha hx =>
    subst hx
    simpa [receives, ho] using hG
  | tombstone => rfl
  | unsubscribe l => rfl
  | destroy env => rfl

/-- A policy that denies is no error of a host. -/
theorem checkPolicy_ne_host {c : ClassName} {p : Principal} {action : PolicyAction}
    {e : HostError} : cfg.checkPolicy c p action ≠ .error (.host e) := by
  unfold RuntimeConfig.checkPolicy
  split
  · simp
  · split
    · simp
    · dsimp only
      split <;> simp

/-- Nobody is turned away while a host is materialized. -/
theorem requests_step (h : rt.Open) (hm : Moves cfg rt x rt') (q : ℕ) (ask : Ask) :
    rt'.requests q ≠ some ⟨ask, .rejected (.host .mailboxClosed)⟩ := by
  have hset : ∀ {t : Runtime S Env Op} {q' ask' pc'}, t.requests = rt.requests →
      pc' ≠ .rejected (.host .mailboxClosed) →
      (t.setRequest q' ask' pc').requests q
        ≠ some ⟨ask, .rejected (.host .mailboxClosed)⟩ := by
    intro t q' ask' pc' ht hne
    by_cases he : q = q'
    · subst he
      rw [requests_setRequest_self]
      simpa using fun _ => hne
    · rw [requests_setRequest_ne he, ht]
      exact h.requests q ask
  cases hm with
  | @answer x q' ask' pc' ha =>
    refine hset rfl ?_
    rintro rfl
    cases ha with
    | failed hq ho he => exact (h.hosts _ _ ho).outcomes 1 he
    | denied hq ho hp => exact absurd hp checkPolicy_ne_host
    | undestroyed hq hask hh ho hp => exact absurd hp checkPolicy_ne_host
  | materialize hn => exact hset rfl (by simp)
  | @install q' ask' ok r' o result hq' ho hr =>
    cases result with
    | ok _ => exact hset rfl (by simp)
    | error e =>
      refine hset rfl (fun he => ?_)
      obtain rfl := RuntimeError.host.inj (AskPc.rejected.inj he)
      exact (h.hosts _ _ ho).outcomes 1 hr
  | serve ho hserve hs =>
    refine hset rfl ?_
    rintro rfl
    cases hserve
  | @tombstone q' admitted id p r' o s hn hh ho hs =>
    by_cases he : q = q'
    · subst he
      rw [requests_setRequest_self]
      simp
    · rw [requests_setRequest_ne he]
      intro hq
      rcases requests_detachAll hq with hq | he
      · exact h.requests q ask hq
      · exact absurd he (by simp)
  | tombstoned hq' => exact hset rfl (by simp)
  | own => exact h.requests q ask
  | evict =>
    rw [requests_evict]
    exact h.requests q ask
  | unsubscribe hq' ho hs => exact hset rfl (by simp)
  | shutdown => exact h.requests q ask
  | destroyHosts hd => exact h.requests q ask

/-- **Every step taken under the condition turns nobody away.** -/
theorem step (hload : ∀ load, cfg.loader = some load →
      ∀ name v, load name v ≠ .error .mailboxClosed) (h : rt.Open) (hrt : rt.Sound)
    (hG : rt.receives cfg x = true) (hs : rt.step cfg x = some rt') : rt'.Open := by
  have hm := step_moves hs
  refine ⟨fun r o' ho' => ?_, fun r o' ho' => ?_, fun q ask => h.requests_step hm q ask⟩
  · rcases hm.does ho' with ho | ⟨o, a, s, ho, -, -, rfl⟩ | ⟨-, id, registration, rfl⟩
    · exact h.loads r o' ho
    · exact h.loads r o ho
    · exact hload
  · rcases hm.does ho' with ho | ⟨o, a, s, ho, hd, hs, rfl⟩ | ⟨-, id, registration, rfl⟩
    · exact h.hosts r o' ho
    · exact Sys.welcoming_step (h.loads r o ho) (hrt.lifecycle r o ho) (h.hosts r o ho)
        (receives_of_does hG ho hd) hs
    · refine Sys.welcoming_activate ?_
      exact ⟨by simp [Sys.init, Host.init], by simp [Sys.init, Host.init],
        by simp [Sys.init, Host.init], by simp [Sys.init, Host.init]⟩

/-- What it comes to. -/
theorem transparent (h : rt.Open) (hrt : rt.Sound) : rt.Transparent where
  calls r o c task ho := (h.hosts r o ho).calls c task
  tells r o t task entry ho := (h.hosts r o ho).tells t task entry
  requests := h.requests
  present r o g ho hg := by
    have hl := hrt.lifecycle r o ho
    obtain ⟨ha, hp⟩ := hl.alive g hg
    have hd : (rt.sys o).flow.deact ≠ some .dropped := by
      intro hd
      have hdead := (hl.drained _ hd (by simp)).1 g
      exact absurd (hg.symm.trans hdead) (by simp)
    exact (hl.present ha hd).2.trans hp

end Open

/-- **Idle eviction is transparent** in every run in which whatever is put into a
mailbox finds its host receptive; and however that may be, a call is handled at
most once. -/
theorem idle_eviction_transparent (cfg : RuntimeConfig S Env Op)
    (stores : ActorId → ActorStore S)
    (hload : ∀ load, cfg.loader = some load →
      ∀ name v, load name v ≠ .error .mailboxClosed) (xs : List (RuntimeAct Env))
    (hG : TransitionSystem.Along (step cfg) (fun rt x => rt.receives cfg x = true)
      (init stores) xs) :
    (∀ rt, TransitionSystem.run (step cfg) (init stores) xs = some rt → rt.Transparent)
      ∧ ∀ q, TransitionSystem.count (step cfg) (handles q) (init stores) xs ≤ 1 := by
  refine ⟨fun rt hrun => ?_, fun q => handled_once cfg stores q xs⟩
  have h := TransitionSystem.run_invariant (step cfg) (P := fun rt => rt.Sound ∧ rt.Open)
    (fun _ _ _ h hG hs => ⟨h.1.step hs, h.2.step hload h.1 hG hs⟩)
    ⟨.init stores, .init stores⟩ hG hrun
  exact h.2.transparent h.1

/-! ### A counter that is called while it goes idle -/

/-- The counter is called, and its host goes idle, up to its mailbox. -/
def goingIdle : List (RuntimeAct Bool) :=
  .start 0 (.call "Counter" "counter-1" "inc" .null Counter.admin) true
    :: Counter.hostActivating 0 7 ++ [.resume 0 true, .resume 0 true]
    ++ Counter.hostWorking 0 1 4 ++ [.host 0 (.idleFire true)]

/-- It is evicted, and called again. -/
def goneAndCalled : List (RuntimeAct Bool) :=
  Counter.hostWorking 0 1 1 ++ [.host 0 (.deactivation true), .host 0 (.save 0 true),
    .host 0 (.save 0 true), .host 0 (.deactivation true), .host 0 (.deactivation true),
    .host 0 .idleEvict]
    ++ .start 1 (.call "Counter" "counter-1" "inc" .null Counter.admin) true
    :: Counter.hostActivating 1 7 ++ [.resume 1 true, .resume 1 true]
    ++ Counter.hostWorking 1 1 4

/-- The theorem applies to a counter that is called once more after it was
evicted: the call is handled, once, by the worker of another object. -/
theorem idle_eviction_transparent_called :
    ∃ rt : Runtime ℕ Bool ℕ,
      TransitionSystem.run (step Counter.runtime) (init (Counter.stored 5))
        (goingIdle ++ goneAndCalled) = some rt
      ∧ rt.hosts "counter-1" = some 1 ∧ rt.Transparent
      ∧ ∀ q, TransitionSystem.count (step Counter.runtime) (handles q)
        (init (Counter.stored 5)) (goingIdle ++ goneAndCalled) ≤ 1 := by
  have hrun : (TransitionSystem.run (step Counter.runtime) (init (Counter.stored 5))
      (goingIdle ++ goneAndCalled)).any (fun rt => rt.hosts "counter-1" == some 1)
        = true := by decide +kernel
  obtain ⟨rt, hrt, h⟩ := (Option.any_eq_true _ _).mp hrun
  have ht := idle_eviction_transparent Counter.runtime (Counter.stored 5)
    (fun _ hload => absurd hload (by simp [Counter.runtime]))
    (goingIdle ++ goneAndCalled) (by decide +kernel)
  exact ⟨rt, hrt, beq_iff_eq.mp h, ht.1 rt hrt, ht.2⟩

/-- Nothing goes wrong in the step, which is one of a call, of a tell or of a host
by itself; no host is deactivated but for being idle. -/
def uneventful : RuntimeAct Env → Bool
  | .start _ (.call _ _ _ _ _) admitted => admitted
  | .start _ (.tell _ _ _ _ _) admitted => admitted
  | .resume _ ok => ok
  | .host _ (.deactivate _) => false
  | .host _ (.tellLand _ ok) => ok
  | .host _ (.activation _ ok) => ok
  | .host _ (.worker _ _ ok) => ok
  | .host _ (.save _ ok) => ok
  | .host _ _ => true
  | _ => false

/-- The counter is called while its host goes idle. -/
def calledLate : List (RuntimeAct Bool) :=
  goingIdle ++ [.start 1 (.call "Counter" "counter-1" "inc" .null Counter.admin) true,
    .resume 1 true]

/-- **A call that gets to the counter while its host is being deactivated is
rejected**, although nothing else goes wrong. -/
theorem not_idle_eviction_transparent :
    ¬∀ (xs : List (RuntimeAct Bool)) (rt : Runtime ℕ Bool ℕ),
      xs.all uneventful = true →
      TransitionSystem.run (step Counter.runtime) (init (Counter.stored 5)) xs = some rt →
      rt.Transparent := by
  intro h
  have hrun : (TransitionSystem.run (step Counter.runtime) (init (Counter.stored 5))
      calledLate).any (fun rt => (rt.objects 0).any (fun o => (o.host.calls 1).any (fun c =>
        match c.pc with
        | .refused .mailboxClosed => true
        | _ => false))) = true := by decide
  have hall : calledLate.all uneventful = true := by decide
  obtain ⟨rt, hrt, hf⟩ := (Option.any_eq_true _ _).mp hrun
  obtain ⟨o, ho, hf⟩ := (Option.any_eq_true _ _).mp hf
  obtain ⟨c, hc, hf⟩ := (Option.any_eq_true _ _).mp hf
  have hwelcome : c.Welcome := (h calledLate rt hall hrt).calls 0 o 1 c ho hc
  split at hf
  · next hpc => exact hwelcome.1 hpc
  · exact absurd hf (by simp)

end Runtime
