import Actjs.Flow
import Actjs.Transition

/-!
# The life of a host

One invariant holds of every reachable host whatever the interleaving: which
flags go together, when the mailbox is open, when the instance is there, and
that of all worker loops ever started at most the last is alive, and that
one only while the host is activated. It is about the flow of the host and
is preserved by each way the flow moves; `Lifecycle.of_moves` is the step
lemma, `Sys.lifecycle_run` holds of runs.
-/

open Function (update)

/-- **What holds of the life of every reachable host.**

The flags of a host are set in several places and read in others, and none of
them says by itself what is going on. These are the combinations that come
about, and they come about whatever is called when: of the worker loops only
the last one can be alive, the mailbox is closed from the moment a
deactivation begins, and the instance is the one whose worker runs. -/
structure Lifecycle (l : Life) : Prop where
  /-- A living worker is the one `workerPromise` names, on an activated
  host. -/
  alive : ∀ g, (l.workers g).alive = true →
    l.activated = true ∧ l.workerPromise = some g
  waits : ∀ g, g ∈ l.mailbox.waiters → l.workers g = .waiting
  waiter : ∀ g, l.workers g = .waiting → l.mailbox.waiters = [g]
  /-- A worker stops only when the mailbox is closed and empty. -/
  spent : ∀ g, l.activated = true → l.workerPromise = some g →
    (l.workers g).serving = false →
    l.mailbox.closed = true ∧ l.mailbox.buffer = []
  attended : l.activated = true → l.deact = none →
    l.mailbox.closed = false
  /-- Until an activation has activated the host, it takes messages for later.
  -/
  early : l.phase = .loading ∨ l.phase = .opening →
    l.activated = false ∧ l.mailbox.closed = false
  /-- The instance is the one the activation constructed whose worker
  runs. -/
  constructed : l.phase = .opening → l.inst = some l.activation
  present : l.activated = true → l.deact ≠ some .dropped →
    l.workerPromise ≠ none ∧ l.inst = l.workerPromise
  /-- A deactivation is of an activated host, and begins with its mailbox. -/
  closed : l.deact ≠ none → l.activated = true ∧ l.mailbox.closed = true
  awaiting : ∀ g, l.deact = some (.awaiting g) → l.workerPromise = some g
  /-- Once its worker has returned, a deactivation has an empty mailbox. -/
  drained : ∀ d, l.deact = some d → (∀ g, d ≠ .awaiting g) →
    (∀ g, (l.workers g).alive = false) ∧ l.mailbox.buffer = []

namespace Lifecycle

variable {f : HostFlow} {g : ℕ}

/-- Nobody waits on the mailbox if no worker is blocked. -/
theorem no_waiter (h : Lifecycle f.toLife)
    (hw : ∀ g, f.workers g ≠ .waiting) : f.mailbox.waiters = [] :=
  List.eq_nil_iff_forall_not_mem.mpr (fun g hg => hw g (h.waits g hg))

/-- A host that is not activated has no living worker. -/
theorem not_alive (h : Lifecycle f.toLife) (ha : f.activated = false) (g : ℕ) :
    (f.workers g).alive = false := by
  by_contra hg
  have := (h.alive g (by simpa using hg)).1
  exact absurd this (by simp [ha])

/-- A worker that is not in `dequeue()` moves, and goes on serving. -/
theorem setWorker (h : Lifecycle f.toLife) {w : WorkerStage}
    (hg : (f.workers g).alive = true) (hg' : f.workers g ≠ .waiting)
    (hw : w.serving = true) (hw' : w ≠ .waiting) :
    Lifecycle (f.setWorker g w).toLife where
  alive g' hg'' := by
    show f.activated = true ∧ f.workerPromise = some g'
    have := h.alive g'
    have := h.alive g hg
    grind
  waits g' hm := by
    have := h.waits g' hm
    grind
  waiter g' hm := by
    refine h.waiter g' ?_
    grind
  spent g' ha hp hs := by
    refine h.spent g' ha hp ?_
    have := h.alive g hg
    have hp' : f.workerPromise = some g' := hp
    grind
  attended := h.attended
  early := h.early
  constructed := h.constructed
  present := h.present
  closed := h.closed
  awaiting := h.awaiting
  drained d hd hne := by
    have := (h.drained d hd hne).1 g
    exact absurd hg (by simp [this])

/-- The worker loop returns. -/
theorem exit (h : Lifecycle f.toLife) (hg : f.workers g = .exiting) :
    Lifecycle (f.setWorker g .done).toLife where
  alive g' hg' := by
    refine h.alive g' ?_
    grind [WorkerStage.alive]
  waits g' hm := by
    have := h.waits g' hm
    grind
  waiter g' hm := by
    refine h.waiter g' ?_
    grind
  spent g' ha hp hs := by
    refine h.spent g' ha hp ?_
    grind [WorkerStage.serving]
  attended := h.attended
  early := h.early
  constructed := h.constructed
  present := h.present
  closed := h.closed
  awaiting := h.awaiting
  drained d hd hne := by
    have := (h.drained d hd hne).1 g
    exact absurd hg (by rw [WorkerStage.alive.eq_def] at this; grind)

/-- A worker between two turns dequeues. -/
theorem dequeue (h : Lifecycle f.toLife) (hg : f.workers g = .looping) :
    Lifecycle (f.dequeue g).toLife := by
  have ha := h.alive g (by rw [hg]; rfl)
  have hd : ∀ d, f.deact = some d → ∃ g, d = .awaiting g := by
    intro d hd
    by_contra hne
    have := (h.drained d hd (by simpa using hne)).1 g
    rw [hg] at this
    exact absurd this (by simp [WorkerStage.alive])
  have hw : f.mailbox.waiters = [] :=
    h.no_waiter (fun g' hg' => by
      have := h.alive g' (by rw [hg']; rfl)
      grind)
  obtain ⟨hal, hwa, hwr, hsp, hat, hea, hco, hpr, hcl, haw, hdr⟩ := h
  unfold HostFlow.dequeue
  rcases f.mailbox.dequeue_cases g with ⟨x, m, he, hb, hws, hc, -⟩ | ⟨he, hb, hc⟩
    | ⟨m, he, hb, hc, hb', hws, hc', -⟩ <;> rw [he]
  · constructor <;> grind [WorkerStage.alive, WorkerStage.serving]
  · constructor <;> grind [WorkerStage.alive, WorkerStage.serving]
  · constructor <;> grind [WorkerStage.alive, WorkerStage.serving]

/-- An item is enqueued, or refused. -/
theorem enqueue (h : Lifecycle f.toLife) (item : Item) :
    Lifecycle (f.enqueue item).toLife := by
  obtain ⟨hal, hwa, hwr, hsp, hat, hea, hco, hpr, hcl, haw, hdr⟩ := h
  unfold HostFlow.enqueue
  rcases f.mailbox.enqueue_cases item with ⟨he, hc⟩ | ⟨he, hc, hw, -⟩
    | ⟨w, m, he, hc, hws, hb, hc', -⟩ | ⟨m, he, hc, hw, hw', -, hb, hc', -⟩ <;>
    rw [he]
  · exact ⟨hal, hwa, hwr, hsp, hat, hea, hco, hpr, hcl, haw, hdr⟩
  · exact ⟨hal, hwa, hwr, hsp, hat, hea, hco, hpr, hcl, haw, hdr⟩
  · -- the oldest waiter is the only one, and it is the worker
    have hwait := hwa w (by rw [hws]; exact List.mem_cons_self)
    have hm : m.waiters = [] := by grind
    have hlive := hal w (by rw [hwait]; rfl)
    constructor <;>
      grind [WorkerStage.alive, WorkerStage.serving, Function.update_apply]
  · constructor <;> grind [WorkerStage.alive, WorkerStage.serving]

theorem enqueueAll (h : Lifecycle f.toLife) (rs : List InboxRecord) :
    Lifecycle (f.enqueueAll rs).toLife := by
  induction rs generalizing f with
  | nil => exact h
  | cons r rs ih =>
    rw [HostFlow.enqueueAll]
    split
    · exact h
    · exact ih (h.enqueue _)

/-- The host becomes activated, and its worker dequeues. -/
theorem activated (h : Lifecycle f.toLife) {i : Option ℕ}
    (hi : f.Constructs i) :
    Lifecycle { { f with
        inst := i
        activated := true
        workerPromise := some f.activation }.dequeue
          f.activation with phase := .reading }.toLife := by
  have hearly := h.early (by cases hi <;> simp_all)
  have hdead := h.not_alive hearly.1
  have hi' : i = some f.activation := by
    cases hi with
    | earlier hp => exact h.constructed hp
    | now hp => rfl
  have hw := h.no_waiter (fun g hg => by
    have := hdead g
    rw [hg] at this
    exact absurd this (by simp [WorkerStage.alive]))
  have hd : f.deact = none := by
    by_contra hd
    exact absurd (h.closed hd).1 (by simp [hearly.1])
  obtain ⟨hal, hwa, hwr, hsp, hat, hea, hco, hpr, hcl, haw, hdr⟩ := h
  unfold HostFlow.dequeue
  rcases f.mailbox.dequeue_cases f.activation with ⟨x, m, he, hb, hws, hc, -⟩
    | ⟨he, hb, hc⟩ | ⟨m, he, hb, hc, hb', hws, hc', -⟩
  · dsimp only
    rw [he]
    constructor <;> grind [WorkerStage.alive, WorkerStage.serving]
  · exact absurd hc (by simp [hearly.2])
  · dsimp only
    rw [he]
    constructor <;> grind [WorkerStage.alive, WorkerStage.serving]

/-- The mailbox is closed, and the worker awaited. -/
theorem close (h : Lifecycle f.toLife) (hd : f.deact = none)
    (ha : f.activated = true) (hg : f.workerPromise = some g) :
    Lifecycle { f.closeMailbox with deact := some (.awaiting g) }.toLife := by
  obtain ⟨hal, hwa, hwr, hsp, hat, hea, hco, hpr, hcl, haw, hdr⟩ := h
  -- a worker that waits has an empty buffer to leave behind
  have hwake := f.mailbox.wakeful
  unfold HostFlow.closeMailbox
  constructor <;>
    grind [WorkerStage.alive, WorkerStage.serving, Mailbox.close_buffer,
      Mailbox.close_closed, Mailbox.close_waiters]

/-! ## The steps

One lemma for each kind of move, so that the step lemma only has to say which
kind a label makes. -/

theorem of_opening {f' : HostFlow} (h : Lifecycle f.toLife) (hs : f.Opening f') :
    Lifecycle f'.toLife := by
  cases hs with
  | none => exact h
  | refuse ha hp =>
    obtain ⟨hal, hwa, hwr, hsp, hat, hea, hco, hpr, hcl, haw, hdr⟩ := h
    constructor <;> grind
  | begin capacity hc ha hp =>
    have hdead := h.not_alive ha
    obtain ⟨hal, hwa, hwr, hsp, hat, hea, hco, hpr, hcl, haw, hdr⟩ := h
    constructor <;> grind [WorkerStage.alive, Mailbox.new]

/-- The activation goes on, the instance being constructed. -/
theorem setPhase (h : Lifecycle f.toLife) {p : Phase} (hl : p ≠ .loading)
    (ho : p ≠ .opening) : Lifecycle { f with phase := p }.toLife :=
  { h with
    early := fun hp => absurd hp (not_or.mpr ⟨hl, ho⟩)
    constructed := fun hp => absurd hp ho }

/-- The instance is constructed before the host is activated. -/
theorem construct (h : Lifecycle f.toLife) {i : Option ℕ} (hi : f.Constructs i) :
    Lifecycle { f with phase := .opening, inst := i }.toLife := by
  have hearly := h.early (by cases hi <;> simp_all)
  have hi' : i = some f.activation := by
    cases hi with
    | earlier hp => exact h.constructed hp
    | now hp => rfl
  exact
    { h with
      early := fun _ => hearly
      constructed := fun _ => hi'
      present := fun ha => absurd ha (by simp [hearly.1]) }

theorem of_activating {f' : HostFlow} (h : Lifecycle f.toLife)
    (hs : f.Activating f') : Lifecycle f'.toLife := by
  cases hs with
  | load hp => rw [HostFlow.phase_self hp]; exact h
  | opening hi => exact h.construct hi
  | activated hi => exact h.activated hi
  | failed hp => exact h.setPhase (by simp) (by simp)
  | read hp => exact h.setPhase (by simp) (by simp)
  | replayed hp => exact (h.enqueueAll _).setPhase (by simp) (by simp)
  | settled hp => exact h.setPhase (by simp) (by simp)

theorem of_working {f' : HostFlow} (h : Lifecycle f.toLife)
    (hs : f.Working g f') : Lifecycle f'.toLife := by
  cases hs with
  | dequeue hg => exact h.dequeue hg
  | exit hg => exact h.exit hg
  | refuse e hg => exact h.setWorker (by rw [hg]; rfl) (by rw [hg]; simp) rfl (by simp)
  | ignore hg => exact h.setWorker (by rw [hg]; rfl) (by rw [hg]; simp) rfl (by simp)
  | start hg => exact h.setWorker (by rw [hg]; rfl) (by rw [hg]; simp) rfl (by simp)
  | resolve r hg => exact h.setWorker (by rw [hg]; rfl) (by rw [hg]; simp) rfl (by simp)
  | commit hg => exact h.setWorker (by rw [hg]; rfl) (by rw [hg]; simp) rfl (by simp)
  | ack hg => exact h.setWorker (by rw [hg]; rfl) (by rw [hg]; simp) rfl (by simp)
  | turn hg => rw [HostFlow.setWorker_self hg]; exact h
  | flush hg => rw [HostFlow.setWorker_self hg]; exact h
  | fail e hg =>
    rcases hg with hg | ⟨id, hg⟩ | hg <;>
      exact h.setWorker (by rw [hg]; rfl) (by rw [hg]; simp) rfl (by simp)
  | unhandled ok hg =>
    exact h.setWorker (by rw [hg]; rfl) (by rw [hg]; simp) rfl (by simp)
  | finish hg => exact h.setWorker (by rw [hg]; rfl) (by rw [hg]; simp) rfl (by simp)

/-- A deactivation whose worker has returned has no living worker, and an
empty mailbox. -/
theorem of_awaited (h : Lifecycle f.toLife) (hf : f.Awaited) :
    (∀ g, (f.workers g).alive = false) ∧ f.mailbox.buffer = []
      ∧ f.activated = true ∧ f.mailbox.closed = true
      ∧ f.workerPromise ≠ none ∧ f.inst = f.workerPromise := by
  cases hf with
  | @worker g hd hg =>
    have hp := h.awaiting g hd
    have hc := h.closed (by rw [hd]; simp)
    refine ⟨fun g' => ?_, (h.spent g hc.1 hp (by rw [hg]; rfl)).2, hc.1, hc.2,
      h.present hc.1 (by rw [hd]; simp)⟩
    by_contra hg'
    have := (h.alive g' (by simpa using hg')).2
    grind [WorkerStage.alive]
  | none hd =>
    have hc := h.closed (by rw [hd]; simp)
    have hdr := h.drained _ hd (by simp)
    exact ⟨hdr.1, hdr.2, hc.1, hc.2, h.present hc.1 (by rw [hd]; simp)⟩

/-- The deactivation goes on after its worker has returned. -/
theorem setDeact (h : Lifecycle f.toLife) {d : DeactStage}
    (hdead : ∀ g, (f.workers g).alive = false) (hb : f.mailbox.buffer = [])
    (ha : f.activated = true) (hc : f.mailbox.closed = true)
    (hp : f.workerPromise ≠ none ∧ f.inst = f.workerPromise)
    (hd : ∀ g, d ≠ .awaiting g) :
    Lifecycle { f with deact := some d }.toLife :=
  { h with
    attended := fun _ hn => absurd hn (by simp)
    present := fun _ _ => hp
    closed := fun _ => ⟨ha, hc⟩
    awaiting := fun g hg => absurd (Option.some.inj hg) (hd g)
    drained := fun _ _ _ => ⟨hdead, hb⟩ }

/-- The instance and the worker are dropped. -/
theorem drop (h : Lifecycle f.toLife) (hf : f.Awaited) :
    Lifecycle { f.toLife with
      inst := none, workerPromise := none, deact := some .dropped } := by
  obtain ⟨hdead, hb, ha, hc, -⟩ := h.of_awaited hf
  exact
    { h with
      alive := fun g hg => absurd hg (by simp [hdead g])
      spent := fun g _ hg => absurd hg (by simp)
      attended := fun _ hn => absurd hn (by simp)
      early := fun hp => absurd ha (by simp [(h.early hp).1])
      constructed := fun hp => absurd ha (by simp [(h.early (.inr hp)).1])
      present := fun _ hn => absurd rfl hn
      closed := fun _ => ⟨ha, hc⟩
      awaiting := fun g hg => absurd (Option.some.inj hg) (by simp)
      drained := fun _ _ _ => ⟨hdead, hb⟩ }

/-- The `finally` of a deactivation. -/
theorem finish (h : Lifecycle f.toLife)
    (hd : f.deact = some .dropped ∨ f.deact = some .failed) :
    Lifecycle { f.toLife with deact := none, activated := false } := by
  have hdead : ∀ g, (f.workers g).alive = false := by
    rcases hd with hd | hd <;> exact (h.drained _ hd (by simp)).1
  have ha : f.activated = true :=
    (h.closed (by rcases hd with hd | hd <;> rw [hd] <;> simp)).1
  exact
    { h with
      alive := fun g hg => absurd hg (by simp [hdead g])
      spent := fun g hn => absurd hn (by simp)
      attended := fun hn => absurd hn (by simp)
      early := fun hp => absurd ha (by simp [(h.early hp).1])
      present := fun hn => absurd hn (by simp)
      closed := fun hn => absurd rfl hn
      awaiting := fun g hg => absurd hg (by simp)
      drained := fun d hn => absurd hn (by simp) }

theorem of_deactivating {f' : HostFlow} (h : Lifecycle f.toLife)
    (hs : f.Deactivating f') : Lifecycle f'.toLife := by
  cases hs with
  | ending hf =>
    obtain ⟨hdead, hb, ha, hc, hp⟩ := h.of_awaited hf
    exact h.setDeact hdead hb ha hc hp (by simp)
  | drop errors hf => exact h.drop hf
  | fail hd =>
    obtain ⟨hdead, hb⟩ := h.drained _ hd (by simp)
    have hc := h.closed (by rw [hd]; simp)
    exact h.setDeact hdead hb hc.1 hc.2 (h.present hc.1 (by simp [hd]))
      (by simp)
  | finish hd => exact h.finish hd

theorem of_closing {f' : HostFlow} (h : Lifecycle f.toLife) (hs : f.Closing f') :
    Lifecycle f'.toLife := by
  cases hs with
  | none => exact h
  | close hd ha hg => exact h.close hd ha hg
  | unattended _ hd ha hg => exact absurd hg (h.present ha (by simp [hd])).1

theorem of_telling {t : ℕ} {f' : HostFlow} (h : Lifecycle f.toLife)
    (hs : f.Telling t f') : Lifecycle f'.toLife := by
  cases hs with
  | accept ht hr => exact h.enqueue _
  | _ => exact h

theorem of_calling {c : ℕ} {f' : HostFlow} (h : Lifecycle f.toLife)
    (hs : f.Calling c f') : Lifecycle f'.toLife := by
  cases hs with
  | move hp => exact h
  | accept method args hf hr => exact h.enqueue _

/-- **Every way a flow moves preserves the invariant of its life.** -/
theorem of_moves {Env : Type} {a : Act Env} {f' : HostFlow}
    (h : Lifecycle f.toLife) (hs : f.Moves f' a) : Lifecycle f'.toLife := by
  cases a with
  | activate => exact h.of_opening hs
  | tellStart t type payload =>
    obtain ⟨-, f₁, task, ho, -, rfl⟩ := hs
    have h₁ := h.of_opening ho
    exact h₁
  | tellLand t ok => exact h.of_telling hs
  | tellResume t => exact h.of_telling hs
  | callStart c method args =>
    obtain ⟨-, ⟨-, hc⟩ | ⟨f₁, task, ho, -, rfl⟩⟩ := hs
    · exact h.of_calling hc
    · have h₁ := h.of_opening ho
      exact h₁
  | callResume c => exact h.of_calling hs.2
  | activation env ok => exact h.of_activating hs
  | worker g env ok => exact h.of_working hs
  | deactivate env => exact h.of_closing hs
  | deactivation env => exact h.of_deactivating hs
  | destroy env => exact h.of_closing hs
  | idleFire env => exact h.of_closing hs
  | flushResume k =>
    obtain ⟨es, rfl⟩ := hs
    exact h
  | _ =>
    obtain rfl := hs
    exact h

/-- A host that was just constructed. -/
theorem init {S Env Op : Type} (cfg : HostConfig S Env Op)
    (store : ActorStore S) : Lifecycle (Sys.init cfg store).flow.toLife := by
  constructor <;>
    simp [Sys.init, Sys.flow, Host.init, WorkerPc.stage, WorkerStage.alive]

end Lifecycle

/-! ## Runs -/

namespace Sys

variable {S Env Op : Type} {cfg : HostConfig S Env Op}

/-- **The invariant of its life holds of every reachable host.** -/
theorem lifecycle_run {store : ActorStore S} {s : Sys S Env Op}
    {as : List (Act Env)}
    (h : TransitionSystem.run (step cfg) (init cfg store) as = some s) :
    Lifecycle s.flow.toLife :=
  TransitionSystem.run_invariant' (step cfg)
    (P := fun s => Lifecycle s.flow.toLife)
    (fun _ _ _ hl hs => hl.of_moves (flow_step hs)) (.init cfg store) h

end Sys
