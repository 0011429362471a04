import Actjs.Standing

/-!
# Tells across crashes

A crash loses what a host has in memory. The next one starts from the snapshot that is
stored, or from nothing, and replays the entries of the inbox that are not acked. `Annals`
is what the hosts that crashed have left of their tells, and `AppliedAll` and `AppliedOnce`
say what is to hold of the state that comes of it.

## A state-with-messages actor

A tell is acked before its snapshot is written, and a crash between the two loses it. So
every tell is applied exactly once if what is stored at a crash is what the acked ones have
made: if nothing is marked to be written, the last write has ended, and nothing of a turn
in progress has got into storage. `Observed.Recovers` is the invariant of all lives of such
an actor under that condition; the one of an event-sourced actor is over its log.
-/

open Function (update)

variable {S Env Op : Type}

/-! ## What a host has issued -/

/-- **The tells of a host have entries of their own**, at or above `first`, which is how many
there were when the host was constructed, and none of them was rejected with its entry
in the inbox. -/
structure Issued (first : ℕ) (f : HostFlow) : Prop where
  entries : ∀ t task id, f.tells t = some task → task.pc.entry? = some id →
    first ≤ id ∧ id < f.inbox.length ∧ ∀ e, task.pc ≠ .rejected (some id) e
  dropped : ∀ id ∈ f.dropped, first ≤ id

namespace Issued

variable {first : ℕ} {f f' : HostFlow}

theorem keep (h : Issued first f) (ht : f'.tells = f.tells) (hd : f'.dropped = f.dropped)
    (hi : f'.inbox = f.inbox) : Issued first f' := by
  constructor
  · rw [ht, hi]; exact h.entries
  · rw [hd]; exact h.dropped

/-- A `tell()` moves. -/
theorem setTell (h : Issued first f) (t : ℕ) (task : TellTask)
    (hp : ∀ id, task.pc.entry? = some id →
      first ≤ id ∧ id < f.inbox.length ∧ ∀ e, task.pc ≠ .rejected (some id) e) :
    Issued first { f with tells := update f.tells t (some task) } := by
  refine ⟨fun t' task' id ht hpc => ?_, h.dropped⟩
  have ht : update f.tells t (some task) t' = some task' := ht
  rw [Function.update_apply] at ht
  split at ht
  · obtain rfl := Option.some.inj ht
    exact hp id hpc
  · exact h.entries t' task' id ht hpc

/-- One that has appended nothing. -/
theorem setTell_none (h : Issued first f) {t : ℕ} {task : TellTask}
    (hp : task.pc.entry? = none) :
    Issued first { f with tells := update f.tells t (some task) } :=
  h.setTell t task (fun id he => absurd (hp.symm.trans he) (by simp))

theorem of_opening (h : Issued first f) (hs : f.Opening f') : Issued first f' := by
  cases hs <;> exact h.keep rfl rfl rfl

theorem of_activating (h : Issued first f) (hs : f.Activating f') : Issued first f' := by
  cases hs with
  | @replayed pending hp =>
    have hfr := f.enqueueAll_frame pending
    refine h.keep ?_ ?_ ?_
    · show (f.enqueueAll pending).tells = f.tells
      rw [hfr]
    · show (f.enqueueAll pending).dropped = f.dropped
      rw [hfr]
    · show (f.enqueueAll pending).inbox = f.inbox
      rw [hfr]
  | _ => exact h.keep rfl rfl rfl

theorem of_working {g : ℕ} (h : Issued first f) (hs : f.Working g f') : Issued first f' := by
  cases hs <;> exact h.keep rfl rfl rfl

theorem of_deactivating (h : Issued first f) (hs : f.Deactivating f') : Issued first f' := by
  cases hs <;> exact h.keep rfl rfl rfl

theorem of_closing (h : Issued first f) (hl : Lifecycle f.toLife) (hs : f.Closing f') :
    Issued first f' := by
  cases hs with
  | none => exact h
  | close hd ha hg => exact h.keep rfl rfl rfl
  | unattended _ hd ha hg => exact absurd hg (hl.present ha (by simp [hd])).1

/-- **A `tell()` goes on** that does not reject once it has an entry. -/
theorem of_telling {t : ℕ} (h : Issued first f) (hle : first ≤ f.inbox.length)
    (hno : ∀ type payload id e,
      f'.tells t ≠ some ⟨type, payload, .rejected (some id) e⟩)
    (hs : f.Telling t f') : Issued first f' := by
  -- the entry that a `tell()` goes on with is its own
  have hown : ∀ {type payload id pc}, f.tells t = some ⟨type, payload, pc⟩ →
      pc.entry? = some id → first ≤ id ∧ id < f.inbox.length := fun ht he => by
    obtain ⟨h₁, h₂, -⟩ := h.entries t _ _ ht he
    exact ⟨h₁, h₂⟩
  cases hs with
  | move ht hp hp' => exact h.setTell_none hp'
  | @append type payload ht =>
    have h₁ : Issued first { f with inbox := f.inbox ++ [⟨type, payload⟩] } := by
      refine ⟨fun t' task id ht' hp => ?_, h.dropped⟩
      obtain ⟨hle', hlt, hne⟩ := h.entries t' task id ht' hp
      exact ⟨hle', by simpa using Nat.lt_add_right 1 hlt, hne⟩
    refine (h₁.setTell t ⟨type, payload, .appended f.inbox.length⟩
      (fun id he => ?_)).keep rfl rfl rfl
    obtain rfl := Option.some.inj he
    exact ⟨hle, by simp, by simp⟩
  | @closed type payload id ht hr => exact absurd (Function.update_self _ _ _) (hno _ _ _ _)
  | @drop type payload id ht hr =>
    have hid := hown ht rfl
    have h₁ : Issued first { f with dropped := id :: f.dropped } := by
      refine ⟨h.entries, fun id' hid' => ?_⟩
      rcases List.mem_cons.mp hid' with rfl | hid'
      · exact hid.1
      · exact h.dropped id' hid'
    refine (h₁.setTell t ⟨type, payload, .dropAcking id⟩
      (fun id' he => ?_)).keep rfl rfl rfl
    obtain rfl := Option.some.inj he
    exact ⟨hid.1, hid.2, by simp⟩
  | @accept type payload id ht hr =>
    have hid := hown ht rfl
    refine (h.setTell t ⟨type, payload, .resolved id⟩
      (fun id' he => ?_)).keep rfl rfl rfl
    obtain rfl := Option.some.inj he
    exact ⟨hid.1, hid.2, by simp⟩
  | @dropAcked type payload id ht =>
    have hid := hown ht rfl
    refine (h.setTell t ⟨type, payload, .resolved id⟩
      (fun id' he => ?_)).keep rfl rfl rfl
    obtain rfl := Option.some.inj he
    exact ⟨hid.1, hid.2, by simp⟩
  | @dropFailed type payload id ht => exact absurd (Function.update_self _ _ _) (hno _ _ _ _)

end Issued

section

variable {cfg : HostConfig S Env Op} {s s' : Sys S Env Op} {t : ℕ}

/-- The ack of an entry that was dropped does not fail. -/
theorem Sys.not_rejected_tellLand (h : s.tellLand t true = some s') (type : String)
    (payload : Json) (id : ℕ) (e : HostError) :
    s'.host.tells t ≠ some ⟨type, payload, .rejected (some id) e⟩ := by
  unfold Sys.tellLand at h
  split at h
  · rw [if_pos rfl] at h
    obtain rfl := Option.some.inj h
    show update s.host.tells t _ t ≠ _
    rw [Function.update_self]
    simp
  · dsimp only at h
    rw [if_pos rfl] at h
    obtain rfl := Option.some.inj h
    show update s.host.tells t _ t ≠ _
    rw [Function.update_self]
    simp
  · exact absurd h (by simp)

/-- A `tell()` that goes on finds the mailbox open. -/
theorem Sys.not_rejected_tellResume
    (hopen : ∀ type payload id, s.host.tells t = some ⟨type, payload, .appended id⟩ →
      s.host.mailbox.closed = false)
    (h : s.tellResume t = some s') (type : String) (payload : Json) (id : ℕ) (e : HostError) :
    s'.host.tells t ≠ some ⟨type, payload, .rejected (some id) e⟩ := by
  unfold Sys.tellResume at h
  split at h
  · split at h
    · exact absurd h (by simp)
    · obtain rfl := Option.some.inj h
      show update s.host.tells t _ t ≠ _
      rw [Function.update_self]
      simp
    · obtain rfl := Option.some.inj h
      show update s.host.tells t _ t ≠ _
      rw [Function.update_self]
      simp
  · next type' payload' id' ht =>
    have hc := hopen _ _ _ ht
    obtain rfl := Option.some.inj h
    unfold Sys.tellEnqueue
    dsimp only
    split
    · next hr =>
      unfold Sys.enqueueResult at hr
      rcases s.host.mailbox.enqueue_cases (.tell type' payload' id') with ⟨-, hc'⟩ | ⟨he, -⟩
        | ⟨w, m, he, -⟩ | ⟨m, he, -⟩
      · exact absurd (hc.symm.trans hc') (by simp)
      all_goals rw [he] at hr; exact absurd hr (by simp)
    · show update s.host.tells t _ t ≠ _
      rw [Function.update_self]
      simp
    · show update s.host.tells t _ t ≠ _
      rw [Function.update_self]
      simp
  · exact absurd h (by simp)

/-- **One step of a host** whose storage operations do not fail. -/
theorem Issued.step {old : List ℕ} {first : ℕ} {a : Act Env} (h : Issued first s.flow)
    (ho : TellOrder old first s.flow) (hu : a.undisturbed = true)
    (hG : s.flow.keepsOrder old a = true) (hs : s.step cfg a = some s') :
    Issued first s'.flow := by
  have hm := Sys.flow_step hs
  cases a with
  | activate => exact h.of_opening hm
  | tellStart t type payload =>
    obtain ⟨-, f₁, task, hop, hp, he⟩ := hm
    rw [he]
    exact (h.of_opening hop).setTell_none hp
  | tellLand t ok =>
    obtain rfl : ok = true := hu
    exact h.of_telling ho.backlog.bound (Sys.not_rejected_tellLand hs) hm
  | tellResume t =>
    exact h.of_telling ho.backlog.bound (Sys.not_rejected_tellResume
      (fun _ _ _ ht => (TellOrder.keepsOrder_tellResume hG ht).1) hs) hm
  | callStart c method args => exact absurd hu (by simp [Act.undisturbed])
  | callResume c => exact absurd hu (by simp [Act.undisturbed])
  | activation env ok => exact h.of_activating hm
  | worker g env ok => exact h.of_working hm
  | deactivate env => exact h.of_closing ho.life hm
  | deactivation env => exact h.of_deactivating hm
  | destroy env => exact h.of_closing ho.life hm
  | idleFire env => exact h.of_closing ho.life hm
  | flushResume k =>
    obtain ⟨es, he⟩ := hm
    rw [he]
    exact h.keep rfl rfl rfl
  | _ =>
    have he : s'.flow = s.flow := hm
    rw [he]
    exact h

end

/-! ## What the hosts before have left

Of every entry it is known what became of it in the life that ended: acked,
dropped, or pending and to be replayed by the next. -/

namespace Lives

/-- How many entries the inbox had when the host was constructed. -/
def first (l : Lives S Env Op) : ℕ :=
  match l.crashed with
  | [] => 0
  | c :: _ => c.store.inbox.length

/-- The entries that the hosts before have dropped for capacity. -/
def dropped (l : Lives S Env Op) : List ℕ :=
  l.crashed.flatMap (fun c => c.host.metrics.tellsDropped)

end Lives

/-- **What the hosts that crashed have left of their tells**: each was dropped, had
resolved, or was in flight with its entry in the inbox, and no other host has dropped
it. -/
structure Annals (l : Lives S Env Op) : Prop where
  order : TellOrder l.dropped l.first l.sys.flow
  issued : Issued l.first l.sys.flow
  before : ∀ id ∈ l.dropped, id < l.first
  left : ∀ c ∈ l.crashed, ∀ t task id, c.host.tells t = some task →
    task.pc.entry? = some id →
    id < l.first ∧ (id ∈ l.dropped ∨ task.pc = .resolved id ∨ task.pc = .appended id)
  resolved : ∀ c ∈ l.crashed, ∀ t task id, c.host.tells t = some task →
    task.pc = .resolved id → id ∉ c.host.metrics.tellsDropped → id ∉ l.dropped

/-- What a `tell()` with an entry has come to, if it was not rejected. -/
theorem Issued.cases {f : HostFlow} {first : ℕ} (h : Issued first f) (he : Entries f) {t : ℕ}
    {task : TellTask} {id : ℕ} (ht : f.tells t = some task) (hp : task.pc.entry? = some id) :
    id ∈ f.dropped ∨ task.pc = .resolved id ∨ task.pc = .appended id := by
  obtain ⟨-, -, hno⟩ := h.entries t task id ht hp
  obtain ⟨type, payload, pc⟩ := task
  cases pc with
  | awaitActivate a => exact absurd hp (by simp [TellPc.entry?])
  | appending => exact absurd hp (by simp [TellPc.entry?])
  | appended id' =>
    obtain rfl := Option.some.inj hp
    exact .inr (.inr rfl)
  | dropAcking id' =>
    obtain rfl := Option.some.inj hp
    exact .inl (he.dropping t _ id' ht rfl)
  | resolved id' =>
    obtain rfl := Option.some.inj hp
    exact .inr (.inl rfl)
  | rejected entry e =>
    obtain rfl : entry = some id := hp
    exact absurd rfl (hno e)

namespace Annals

variable {cfg : HostConfig S Env Op} {l l' : Lives S Env Op}

/-- The order in which a new host finds the entries is the one it is left. -/
theorem of_new {old old' : List ℕ} {f : HostFlow} {store : ActorStore S}
    (h : InOrder old f) (hi : store.inbox = f.inbox) (ha : store.acked = f.acked)
    (hgone : ∀ id, id ∈ old' ↔ f.Gone old id) :
    TellOrder old' store.inbox.length (Sys.init cfg store : Sys S Env Op).flow := by
  have hg : ∀ id, (Sys.init cfg store : Sys S Env Op).flow.Gone old' id ↔ f.Gone old id :=
    fun id => by
      rw [← hgone]
      unfold HostFlow.Gone
      simp [Sys.init, Sys.flow, Host.init]
  have hp : ∀ id, (Sys.init cfg store : Sys S Env Op).flow.Past old' id ↔ f.Past old id :=
    fun id => by
      unfold HostFlow.Past
      rw [hg]
      show id ∈ store.acked ∨ _ ↔ _
      rw [ha]
  have hq : (Sys.init cfg store : Sys S Env Op).flow.queued = [] := rfl
  refine ⟨.init cfg store, ?_, ?_, ?_⟩
  · refine ⟨?_, ?_, ?_, ?_, ?_⟩ <;>
      simp [Sys.init, Sys.flow, Host.init, Mailbox.new, Mailbox.close, WorkerPc.stage,
        WorkerStage.holding]
  · refine ⟨hq ▸ .nil, hq ▸ by simp, hq ▸ by simp, fun k hk => ?_, fun k hk => ?_⟩
    · have hk : k ∈ store.acked := hk
      show k < store.inbox.length ∧ _
      rw [hi, hg]
      rw [ha] at hk
      exact ⟨(h.settled k hk).1, fun hn i hik => (hp i).mpr ((h.settled k hk).2 hn i hik)⟩
    · show k < store.inbox.length
      rw [hi]
      exact h.gone k ((hg k).mp hk)
  · refine ⟨le_rfl, ?_, ?_, ?_, ?_, ?_, ?_, ?_⟩ <;>
      simp [Sys.init, Sys.flow, Host.init, History.init]

/-- An actor that storage has never heard of. -/
theorem init (cfg : HostConfig S Env Op) : Annals (Lives.init cfg) where
  order := by
    have hnone : InOrder [] (Sys.init cfg .empty : Sys S Env Op).flow := by
      refine ⟨?_, ?_, ?_, ?_, ?_⟩ <;>
        simp [Sys.init, Sys.flow, Host.init, HostFlow.queued, HostFlow.inHand, Mailbox.new,
          Mailbox.close, ActorStore.empty, HostFlow.Gone]
    refine of_new hnone rfl rfl ?_
    simp [Sys.init, Sys.flow, Host.init, HostFlow.Gone, Lives.dropped, Lives.init]
  issued := ⟨fun t task id ht => absurd ht (by simp [Sys.init, Sys.flow, Host.init, Lives.init]),
    fun id hid => absurd hid (by simp [Sys.init, Sys.flow, Host.init, Lives.init])⟩
  before id hid := absurd hid (by simp [Lives.dropped, Lives.init])
  left c hc := absurd hc (by simp [Lives.init])
  resolved c hc := absurd hc (by simp [Lives.init])

/-- **A crash.** -/
theorem crash (h : Annals l) :
    Annals (⟨.init cfg l.sys.store, l.sys :: l.crashed⟩ : Lives S Env Op) := by
  have hdropped : ∀ id, id ∈ (⟨.init cfg l.sys.store, l.sys :: l.crashed⟩ :
      Lives S Env Op).dropped ↔ l.sys.flow.Gone l.dropped id := fun id => by
    unfold Lives.dropped HostFlow.Gone
    rw [List.flatMap_cons, List.mem_append]
    exact Iff.rfl
  have hfirst : ∀ id < l.first, id < l.sys.store.inbox.length :=
    fun id hid => lt_of_lt_of_le hid h.order.backlog.bound
  refine ⟨of_new h.order.inOrder rfl rfl hdropped, ?_, fun id hid => ?_,
    fun c hc t task id ht hp => ?_, fun c hc t task id ht hp hn => ?_⟩
  · exact ⟨fun t task id ht => absurd ht (by simp [Sys.init, Sys.flow, Host.init]),
      fun id hid => absurd hid (by simp [Sys.init, Sys.flow, Host.init])⟩
  · exact h.order.inOrder.gone id ((hdropped id).mp hid)
  · rw [hdropped]
    rcases List.mem_cons.mp hc with rfl | hc
    · exact ⟨(h.issued.entries t task id ht hp).2.1,
        (h.issued.cases h.order.entries ht hp).imp_left .inl⟩
    · obtain ⟨hlt, hleft⟩ := h.left c hc t task id ht hp
      exact ⟨hfirst id hlt, hleft.imp_left .inr⟩
  · rw [hdropped]
    rintro (hd | hd)
    · rcases List.mem_cons.mp hc with rfl | hc
      · exact hn hd
      · -- the host that has dropped it came later
        have hlt := (h.left c hc t task id ht (by rw [hp]; rfl)).1
        exact absurd (h.issued.dropped id hd) (by omega)
    · rcases List.mem_cons.mp hc with rfl | hc
      · have hle := (h.issued.entries t task id ht (by rw [hp]; rfl)).1
        exact absurd (h.before id hd) (by omega)
      · exact h.resolved c hc t task id ht hp hn hd

/-- **A step of the host** that fails no turn. -/
theorem act {a : Act Env} {s' : Sys S Env Op} (h : Annals l) (hu : a.undisturbed = true)
    (hG : l.sys.flow.keepsOrder l.dropped a = true)
    (hturn : ∀ g env ok, a = .worker g env ok →
      ∀ item, s'.flow.errors ≠ .turn item :: l.sys.flow.errors)
    (hs : l.sys.step cfg a = some s') : Annals { l with sys := s' } :=
  ⟨h.order.step hu hG hturn hs, h.issued.step h.order hu hG hs, h.before, h.left, h.resolved⟩

end Annals

/-! ## What the tells have made

The state as a function of the entries that are applied, which a crash leaves
as they are. -/

/-- What the tells that are applied have made. -/
def Lives.made (cls : ActorClass S Env) (env : Env) (l : Lives S Env Op) : S :=
  cls.told env l.sys.store.inbox (l.sys.flow.applied l.dropped)

/-- Where nothing is applied, it stays the same. -/
theorem HostFlow.Still.told {f f' : HostFlow} {old : List ℕ} (h : f.Still old f')
    (cls : ActorClass S Env) (env : Env) :
    cls.told env f'.inbox (f'.applied old) = cls.told env f.inbox (f.applied old) := by
  rw [h.applied]
  exact ActorClass.told_prefix h.inbox (fun id hid => (HostFlow.mem_applied.mp hid).1)

/-- **A segment of a worker makes one tell more, or none**, and fails no turn. -/
theorem Annals.of_works {l : Lives S Env Op} {s' : Sys S Env Op} {cls : ActorClass S Env}
    {env : Env} {g : ℕ} {P : S → Prop} (h : Annals l)
    (hw : l.sys.AppliesOne cls env g s' P (l.made cls env)) :
    (∀ item, s'.flow.errors ≠ .turn item :: l.sys.flow.errors)
      ∧ P (Lives.made cls env { l with sys := s' }) := by
  cases hw with
  | still ha hP =>
    have hstill : l.sys.flow.Still l.dropped s'.flow := .of_eq ha.inbox ha.acked ha.dropped
    have hmade : Lives.made cls env { l with sys := s' } = l.made cls env :=
      hstill.told cls env
    exact ⟨ha.errors, hmade ▸ hP⟩
  | @ack id e he hg ha hP =>
    refine ⟨ha.errors, ?_⟩
    have happ : s'.flow.applied l.dropped = l.sys.flow.applied l.dropped ++ [id] :=
      h.order.inOrder.applied_ack (HostFlow.mem_queued_of_toAck h.order.life hg) ha.inbox
        ha.acked ha.dropped
    have hi : s'.store.inbox = l.sys.store.inbox := ha.inbox
    show P (cls.told env s'.store.inbox (s'.flow.applied l.dropped))
    rw [happ, hi, ActorClass.told_concat he]
    exact hP

/-- A crash leaves what is applied. -/
theorem Lives.applied_crash {cfg : HostConfig S Env Op} {l : Lives S Env Op} :
    (Sys.init cfg l.sys.store : Sys S Env Op).flow.applied
        (⟨.init cfg l.sys.store, l.sys :: l.crashed⟩ : Lives S Env Op).dropped
      = l.sys.flow.applied l.dropped := by
  refine HostFlow.applied_eq (HostFlow.sorted_applied _ _) (fun id => ?_)
  rw [HostFlow.mem_applied]
  unfold HostFlow.Gone Lives.dropped
  rw [List.flatMap_cons, List.mem_append]
  show _ ↔ id < l.sys.store.inbox.length ∧ id ∈ l.sys.store.acked
    ∧ ¬(id ∈ ([] : List ℕ) ∨ id ∈ l.sys.flow.dropped ∨ _)
  simp [Sys.flow]

/-- So it leaves what the tells have made. -/
theorem Lives.made_crash {cfg : HostConfig S Env Op} {l : Lives S Env Op}
    (cls : ActorClass S Env) (env : Env) :
    (⟨.init cfg l.sys.store, l.sys :: l.crashed⟩ : Lives S Env Op).made cls env
      = l.made cls env :=
  congrArg (cls.told env l.sys.store.inbox) Lives.applied_crash

/-- **The tells that are acked are applied, in inbox order**, and `ids` are the entries of
those that are, one that is applied again as often as it is.

The state is what they make of the one an actor starts with. Among them is every entry that
is acked, whichever host has acked it, unless a host has dropped it; and every tell of a
host that crashed that had resolved and was not dropped. Of every host, a tell whose entry
is among them had resolved and was not dropped, or was in flight. -/
structure AppliedAll (cls : ActorClass S Env) (env : Env) (l : Lives S Env Op)
    (ids : List ℕ) : Prop where
  sorted : ids.Pairwise (· ≤ ·)
  entries : ∀ id ∈ ids, id < l.sys.store.inbox.length
  state : l.sys.host.state = cls.told env l.sys.store.inbox ids
  acked : ∀ id ∈ l.sys.store.acked, id ∉ l.sys.host.metrics.tellsDropped → id ∉ l.dropped →
    id ∈ ids
  resolved : ∀ c ∈ l.crashed, ∀ t task id, c.host.tells t = some task →
    task.pc = .resolved id → id ∉ c.host.metrics.tellsDropped → id ∈ ids
  others : ∀ c ∈ l.sys :: l.crashed, ∀ t task id, c.host.tells t = some task →
    task.pc.entry? = some id → id ∈ ids →
    task.pc = .resolved id ∧ id ∉ c.host.metrics.tellsDropped ∨ task.pc = .appended id

/-- **Each of them is applied once.** -/
structure AppliedOnce (cls : ActorClass S Env) (env : Env) (l : Lives S Env Op)
    (ids : List ℕ) : Prop extends AppliedAll cls env l ids where
  once : ids.Nodup

/-- The tells that are acked are applied, once all that the activation found pending are
acked. -/
theorem Annals.appliedAll {l : Lives S Env Op} {cls : ActorClass S Env} {env : Env}
    {ids : List ℕ} (h : Annals l) (hsorted : ids.Pairwise (· ≤ ·))
    (happ : ∀ id ∈ l.sys.flow.applied l.dropped, id ∈ ids)
    (hids : ∀ id ∈ ids, id < l.sys.store.inbox.length ∧ ¬l.sys.flow.Gone l.dropped id)
    (hx : l.sys.host.state = cls.told env l.sys.store.inbox ids)
    (ha : l.sys.host.activated = true)
    (hr : ∀ id ∈ l.sys.hist.replayable, id ∈ l.sys.store.acked) :
    AppliedAll cls env l ids where
  sorted := hsorted
  entries id hid := (hids id hid).1
  state := hx
  acked id hid hn hold := happ id (HostFlow.mem_applied.mpr
    ⟨(h.order.inOrder.settled id hid).1, hid, fun hg => hg.elim hn hold⟩)
  resolved c hc t task id ht hp hn := by
    have hlt := (h.left c hc t task id ht (by rw [hp]; rfl)).1
    have hold := h.resolved c hc t task id ht hp hn
    refine happ id (HostFlow.mem_applied.mpr
      ⟨lt_of_lt_of_le hlt h.order.backlog.bound, ?_, ?_⟩)
    · exact (h.order.backlog.heard (.inl ha) id hlt).elim (fun hm => hm) (hr id)
    · rintro (hd | hd)
      · exact absurd (h.issued.dropped id hd) (by omega)
      · exact hold hd
  others c hc t task id ht hp hm := by
    obtain ⟨-, hgone⟩ := hids id hm
    rcases List.mem_cons.mp hc with rfl | hc
    · refine ((h.issued.cases h.order.entries ht hp).resolve_left
        (fun hd => hgone (.inl hd))).imp_left (fun hr => ⟨hr, fun hd => hgone (.inl hd)⟩)
    · refine ((h.left c hc t task id ht hp).2.resolve_left
        (fun hd => hgone (.inr hd))).imp_left (fun hr => ⟨hr, fun hd => hgone (.inr ?_)⟩)
      exact List.mem_flatMap.mpr ⟨c, hc, hd⟩

/-- So is each once, if the state is what the tells that are applied have made. -/
theorem Annals.appliedOnce {l : Lives S Env Op} {cls : ActorClass S Env} {env : Env}
    (h : Annals l) (hx : l.sys.host.state = l.made cls env)
    (ha : l.sys.host.activated = true)
    (hr : ∀ id ∈ l.sys.hist.replayable, id ∈ l.sys.store.acked) :
    AppliedOnce cls env l (l.sys.flow.applied l.dropped) where
  toAppliedAll := by
    have hsorted := HostFlow.sorted_applied l.sys.flow l.dropped
    refine h.appliedAll (hsorted.imp le_of_lt) (fun _ hid => hid) (fun id hid => ?_) hx ha hr
    obtain ⟨hlt, -, hn⟩ := HostFlow.mem_applied.mp hid
    exact ⟨hlt, hn⟩
  once := (HostFlow.sorted_applied _ _).imp ne_of_lt

/-! ## A state-with-messages actor

The bystander's record and the condition: at a crash storage holds what the
acked tells have made. -/

/-- **The lives of an actor, and what only a bystander knows of them**: what the turn in
progress began with, and whether anything else has been there for the driver to read since. -/
structure Observed (S Env Op : Type) where
  lives : Lives S Env Op
  before : S
  torn : Bool

/-- No storage operation fails, and nobody calls. -/
def Fate.undisturbed : Fate Env → Bool
  | .act a => a.undisturbed
  | .crash => true

/-- A turn is in progress. -/
def Host.inTurn (h : Host S Env) : Bool := h.workerPromise.any (fun g => (h.workers g).busy)

theorem Sys.between_of_inTurn {s : Sys S Env Op} (hl : Lifecycle s.flow.toLife)
    (h : s.host.inTurn = false) : s.Between := by
  intro g
  by_contra hg
  have hg : (s.host.workers g).busy = true := by simpa using hg
  have hlive : (s.host.workers g).stage.alive = true := by
    by_contra hdead
    exact absurd (WorkerPc.busy_of_dead (by simpa using hdead)) (by simp [hg])
  have hp : s.host.workerPromise = some g := (hl.alive g hlive).2
  unfold Host.inTurn at h
  rw [hp] at h
  exact absurd (hg.symm.trans h) (by simp)

/-- The turn in progress has changed the state. -/
def Sys.stirs [DecidableEq S] (s : Sys S Env Op) (before : S) : Bool :=
  s.host.inTurn && decide (s.host.state ≠ before)

namespace Observed

variable [DecidableEq S]

/-- An actor that storage has never heard of. -/
def init (cfg : HostConfig S Env Op) : Observed S Env Op :=
  ⟨.init cfg, cfg.registration.ctor.blank, false⟩

/-- What is known once a step has led to `l'`. A driver may encode the state more than once
for one write, or keep it as the object that the turn is at work on: so a turn that has
changed the state at all counts as one that a driver may have seen. -/
def next (o : Observed S Env Op) (l' : Lives S Env Op) : Fate Env → Observed S Env Op
  | .act a =>
    let before := o.lives.sys.beganWith o.before a
    ⟨l', before, o.lives.sys.tears o.before o.torn a || l'.sys.stirs before⟩
  | .crash => ⟨l', o.before, false⟩

/-- **One step of the lives that are observed.** -/
def step (cfg : HostConfig S Env Op) (o : Observed S Env Op) (x : Fate Env) :
    Option (Observed S Env Op) :=
  (o.lives.step cfg x).map (fun l' => o.next l' x)

/-- Observing does not get in the way. -/
theorem run_lives (cfg : HostConfig S Env Op) (xs : List (Fate Env)) (o : Observed S Env Op) :
    (TransitionSystem.run (step cfg) o xs).map lives
      = TransitionSystem.run (Lives.step cfg) o.lives xs := by
  induction xs generalizing o with
  | nil => rfl
  | cons x xs ih =>
    rw [TransitionSystem.run_cons, TransitionSystem.run_cons, step]
    cases o.lives.step cfg x with
    | none => rfl
    | some l' =>
      refine (ih (o.next l' x)).trans ?_
      cases x <;> rfl

/-- **When what is stored at a crash is what the acked tells have made.**

A crash comes when nothing is marked to be written, the last write has ended, and in the
middle of a turn only if that has not changed the state so far, and no write has encoded
anything but what it began with. Tells go through the host in inbox order, and the last
write is the one that counts. -/
def recovers (o : Observed S Env Op) : Fate Env → Bool
  | .crash => !o.lives.sys.host.snapshotDirty && o.lives.sys.host.lastEnded
    && (!o.lives.sys.host.inTurn || !o.torn)
  | .act a => o.lives.sys.flow.keepsOrder o.lives.dropped a && o.lives.sys.keepsWrites a

variable {cfg : HostConfig S Env Op} {env : Env} {o o' : Observed S Env Op}

/-- What holds of the lives of a state-with-messages actor. -/
structure Recovers (cfg : HostConfig S Env Op) (env : Env) (o : Observed S Env Op) : Prop where
  annals : Annals o.lives
  flushable : Flushable o.lives.sys
  standing : Standing cfg env (o.lives.made cfg.registration.ctor env) o.before o.torn
    o.lives.sys

omit [DecidableEq S] in
theorem Recovers.init (cfg : HostConfig S Env Op) (env : Env) :
    Recovers cfg env (.init cfg) where
  annals := .init cfg
  flushable := .init cfg .empty
  standing := Standing.init (s := .init cfg .empty)
    (fun p hp => absurd hp (by simp [Sys.init, ActorStore.empty]))
    (fun hne => absurd rfl hne) rfl

/-- **One step keeps it**, under the condition. -/
theorem Recovers.step {x : Fate Env} (h : Recovers cfg env o)
    (hcls : cfg.registration.ctor.Steady) (hswm : cfg.registration.ctor.isEs = false)
    (hu : x.undisturbed = true) (hG : o.recovers x = true)
    (hs : o.step cfg x = some o') : Recovers cfg env o' := by
  obtain ⟨l', hstep, rfl⟩ := Option.map_eq_some_iff.mp hs
  have hlife := h.annals.order.life
  cases x with
  | crash =>
    obtain rfl := Option.some.inj hstep
    simp only [recovers, Bool.and_eq_true, Bool.not_eq_true', Bool.or_eq_true] at hG
    obtain ⟨⟨hd, he⟩, ht⟩ := hG
    have hkept := h.standing.kept hd (ht.imp_left (Sys.between_of_inTurn hlife))
    refine ⟨h.annals.crash, .init cfg _, ?_⟩
    show Standing cfg env (Lives.made _ _
      ⟨.init cfg o.lives.sys.store, o.lives.sys :: o.lives.crashed⟩) o.before false _
    rw [Lives.made_crash]
    exact .init h.standing.shelved.stored h.standing.shelved.known (hkept.base he)
  | act a =>
    obtain ⟨s', hs', rfl⟩ := Option.map_eq_some_iff.mp hstep
    simp only [recovers, Bool.and_eq_true] at hG
    have hf := h.flushable.step hlife hs'
    have hl' : Lifecycle s'.flow.toLife := hlife.of_moves (Sys.flow_step hs')
    by_cases hw : ∃ g env' ok, a = .worker g env' ok
    · obtain ⟨g, env', ok, rfl⟩ := hw
      obtain rfl : ok = true := hu
      obtain ⟨hturn, hstanding⟩ := h.annals.of_works
        (h.standing.of_workerStep hlife hl' h.annals.order.entries hcls hswm hs')
      exact ⟨h.annals.act rfl hG.1 (fun _ _ _ _ => hturn) hs', hf,
        hstanding.mono_torn (fun ht => (Bool.or_eq_false_iff.mp ht).1)⟩
    · have hne : ∀ g env' ok, a ≠ .worker g env' ok :=
        fun g env' ok he => hw ⟨g, env', ok, he⟩
      have hstill := h.annals.order.still hG.1 hne hs'
      refine ⟨h.annals.act hu hG.1 (fun g env' ok he => absurd he (hne g env' ok)) hs', hf, ?_⟩
      show Standing cfg env (Lives.made _ _ { o.lives with sys := s' }) _ _ s'
      have hmade : Lives.made cfg.registration.ctor env { o.lives with sys := s' }
          = o.lives.made cfg.registration.ctor env := hstill.told _ env
      rw [hmade]
      exact (h.standing.step hlife h.flushable hcls hswm hu hG.2 hstill.inbox hne hs').mono_torn
        (fun ht => (Bool.or_eq_false_iff.mp ht).1)

/-- **Every run keeps it**: in every state reached in which the host is between two turns, and
has dealt with all that its activation found pending, each tell is applied once. -/
theorem Recovers.appliedOnce (hcls : cfg.registration.ctor.Steady)
    (hswm : cfg.registration.ctor.isEs = false) {xs : List (Fate Env)}
    (hu : ∀ x ∈ xs, x.undisturbed = true)
    (hG : TransitionSystem.Along (Observed.step cfg) (fun o x => o.recovers x = true)
      (.init cfg) xs)
    (hs : TransitionSystem.run (Observed.step cfg) (.init cfg) xs = some o)
    (ha : o.lives.sys.host.activated = true) (ht : o.lives.sys.host.inTurn = false)
    (hr : ∀ id ∈ o.lives.sys.hist.replayable, id ∈ o.lives.sys.store.acked) :
    AppliedOnce cfg.registration.ctor env o.lives
      (o.lives.sys.flow.applied o.lives.dropped) := by
  have h : Observed.Recovers cfg env o :=
    TransitionSystem.run_invariant (Observed.step cfg)
      (fun _ _ _ h hG hs => h.step hcls hswm hG.1 hG.2 hs) (.init cfg env)
      ((TransitionSystem.along_of_mem (Observed.step cfg) hu _).and (Observed.step cfg) hG) hs
  have hb := Sys.between_of_inTurn h.annals.order.life ht
  exact h.annals.appliedOnce (h.standing.serving ha hb) ha hr

end Observed

