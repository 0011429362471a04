import Actjs.InboxOrder

/-!
# Tells in order

The invariant of a host whose tells are applied in inbox order, `TellOrder`, and
its step lemma. The order is kept as long as a `tell()` goes on after those whose
entries are before its own, and a backlog is placed before any other entry:
`HostFlow.keepsOrder` says which steps these are.
-/

open Function (update)

/-! ## The steps -/

/-- An activation counts no errors. -/
theorem HostFlow.Activating.errors_eq {f f' : HostFlow} (h : f.Activating f') :
    f'.errors = f.errors := by
  cases h with
  | @replayed pending hp =>
    show (f.enqueueAll pending).errors = f.errors
    rw [f.enqueueAll_frame pending]
  | _ => rfl

/-- A worker counts a turn that failed, or an entry without a handler. -/
theorem HostFlow.Working.errors_cases {f f' : HostFlow} {g : ℕ} (h : f.Working g f') :
    f'.errors = f.errors ∨ (∃ item, f'.errors = .turn item :: f.errors)
      ∨ ∃ id, f.workers g = .unhandled id := by
  cases h with
  | @fail item e hg => exact .inr (.inl ⟨item, rfl⟩)
  | @unhandled id ok hg => exact .inr (.inr ⟨id, hg⟩)
  | _ => exact .inl rfl

/-- Nothing fails in a step: no turn, no ack of an entry that has no handler,
and no read of the inbox. -/
structure HostFlow.Smooth (f f' : HostFlow) : Prop where
  turn : ∀ item, f'.errors ≠ .turn item :: f.errors
  unhandled : ∀ id, f'.errors = .unhandled id :: f.errors → f'.acked = id :: f.acked
  read : f.phase = .reading → f'.phase ≠ .finishing

/-- **Tells go through the host in inbox order.** -/
structure TellOrder (old : List ℕ) (first : ℕ) (f : HostFlow) : Prop where
  life : Lifecycle f.toLife
  entries : Entries f
  inOrder : InOrder old f
  backlog : Backlog old first f

namespace TellOrder

variable {f f' : HostFlow} {old : List ℕ} {first g : ℕ}

theorem of_opening (h : TellOrder old first f) (hs : f.Opening f') :
    TellOrder old first f' := by
  refine ⟨h.life.of_opening hs, h.entries.of_opening hs, ?_, ?_⟩
  · cases hs with
    | none => exact h.inOrder
    | refuse ha hp => exact h.inOrder.frame (HostFlow.queued_frame rfl rfl rfl) rfl rfl rfl
    | begin capacity hc ha hp =>
      refine h.inOrder.of_nil ?_ rfl rfl rfl
      have hand : f.inHand = none := HostFlow.inHand_of_dead (h.life.not_alive ha)
      show f.inHand.toList ++ [] = []
      rw [hand]
      rfl
  · cases hs with
    | none => exact h.backlog
    | refuse ha hp =>
      exact h.backlog.settle rfl rfl rfl (HostFlow.queued_frame rfl rfl rfl) rfl (.inl rfl)
        (fun h₁ => absurd h₁ (by simp [ha]))
    | begin capacity hc ha hp =>
      refine ⟨h.backlog.bound, fun _ id hid => ?_, (pendingInbox_sorted _ _).2,
        fun pending hpc => absurd hpc (by simp), fun pending hpc => absurd hpc (by simp),
        fun pending hpc => absurd hpc (by simp), fun pending hpc => absurd hpc (by simp),
        fun h₁ => absurd (show f.activated = true from h₁) (by simp [ha])⟩
      by_cases hack : id ∈ f.acked
      · exact .inl hack
      · exact .inr (mem_pendingInbox (lt_of_lt_of_le hid h.backlog.bound) hack)

/-- What waits when the host becomes activated. -/
theorem queued_activated (hl : Lifecycle f.toLife) {i : Option ℕ}
    (ha : f.activated = false) :
    HostFlow.queued { { f with
        inst := i
        activated := true
        workerPromise := some f.activation }.dequeue f.activation with phase := .reading }
      = f.queued := by
  have hq : HostFlow.queued ({ f with
      inst := i
      activated := true
      workerPromise := some f.activation }.dequeue f.activation) = f.queued :=
    HostFlow.queued_begin (hl.not_alive ha) rfl rfl rfl
  exact hq

theorem of_activating (h : TellOrder old first f)
    (hplace : ∀ pending, f.phase = .replaying pending →
      (∀ r ∈ pending, ¬f.Past old r.id ∧ r.id ∉ f.queued)
        ∧ (pending = [] ∨ f.Room pending.length))
    (hsm : f.Smooth f') (hs : f.Activating f') : TellOrder old first f' := by
  have hearly : ∀ {i}, f.Constructs i → f.activated = false ∧
      (f.phase = .loading ∨ f.phase = .opening) := by
    rintro i (hp | hp)
    · exact ⟨(h.life.early (.inr hp)).1, .inr hp⟩
    · exact ⟨(h.life.early (.inl hp)).1, .inl hp⟩
  have hlife := h.life.of_activating hs
  have hent := h.entries.of_activating (fun pending hp => h.backlog.entries pending hp) hs
  have hord := h.inOrder
  have hlog := h.backlog
  cases hs with
  | load hp =>
    exact ⟨hlife, hent, hord.frame (HostFlow.queued_frame rfl rfl rfl) rfl rfl rfl,
      hlog.setPhase (.inr (by rw [hp]; simp)) rfl rfl rfl (.inl rfl)⟩
  | opening hi =>
    exact ⟨hlife, hent, hord.frame (HostFlow.queued_frame rfl rfl rfl) rfl rfl rfl,
      hlog.setPhase (.inr (by rcases (hearly hi).2 with hp | hp <;> rw [hp] <;> simp))
        rfl rfl rfl (.inr (.inl rfl))⟩
  | activated hi =>
    exact ⟨hlife, hent, hord.frame (queued_activated h.life (hearly hi).1) rfl rfl rfl,
      hlog.setPhase (.inr (by rcases (hearly hi).2 with hp | hp <;> rw [hp] <;> simp))
        rfl rfl rfl (.inr (.inr rfl))⟩
  | failed hp =>
    refine ⟨hlife, hent, hord.frame (HostFlow.queued_frame rfl rfl rfl) rfl rfl rfl,
      hlog.settle rfl rfl rfl (HostFlow.queued_frame rfl rfl rfl) rfl (.inl rfl)
        (fun ha => ?_)⟩
    rcases hp with hp | hp | hp
    · exact absurd ha (by simp [(h.life.early (.inl hp)).1])
    · exact absurd ha (by simp [(h.life.early (.inr hp)).1])
    · exact absurd rfl (hsm.read hp)
  | read hp =>
    refine ⟨hlife, hent, hord.frame (HostFlow.queued_frame rfl rfl rfl) rfl rfl rfl, ?_⟩
    constructor
    · exact hlog.bound
    · exact fun _ => hlog.heard (.inr (by rw [hp]; simp))
    · exact hlog.known
    · rintro pending hpc r hr
      obtain rfl := Phase.replaying.inj hpc
      exact entry_of_mem_pendingInbox hr
    · rintro pending hpc
      obtain rfl := Phase.replaying.inj hpc
      exact (pendingInbox_sorted _ _).1
    · rintro pending hpc r hr i hi
      obtain rfl := Phase.replaying.inj hpc
      by_cases hack : i ∈ f.acked
      · exact .inl (.inl hack)
      · have hlt := (pendingInbox_sorted _ _).2 r.id (List.mem_map_of_mem hr)
        exact .inr (.inr (mem_pendingInbox (hi.trans hlt) hack))
    · rintro pending hpc id hid
      obtain rfl := Phase.replaying.inj hpc
      by_cases hack : id ∈ f.acked
      · exact .inl hack
      · exact .inr (.inr (mem_pendingInbox (hlog.known id hid) hack))
    · exact fun _ hp' => absurd hp' (by simp)
  | @replayed pending hp =>
    obtain ⟨hnew, hroom⟩ := hplace pending hp
    obtain ⟨hord', hq⟩ := hord.enqueueAll h.life hroom (hlog.ordered pending hp)
      (fun r hr => ⟨(List.getElem?_eq_some_iff.mp (hlog.entries pending hp r hr)).1,
        hnew r hr⟩) (hlog.before pending hp)
    have hfr := f.enqueueAll_frame pending
    have hq' : HostFlow.queued { f.enqueueAll pending with phase := .finishing }
        = f.queued ++ pending.map InboxRecord.id := hq
    refine ⟨hlife, hent, hord'.frame rfl rfl rfl rfl, ?_⟩
    have hi : (f.enqueueAll pending).inbox = f.inbox := by rw [hfr]
    have hk : (f.enqueueAll pending).acked = f.acked := by rw [hfr]
    have hr : (f.enqueueAll pending).replayable = f.replayable := by rw [hfr]
    constructor
    · show first ≤ (f.enqueueAll pending).inbox.length
      rw [hi]; exact hlog.bound
    · show _ → ∀ id < first, id ∈ (f.enqueueAll pending).acked
        ∨ id ∈ (f.enqueueAll pending).replayable
      rw [hk, hr]
      exact fun _ => hlog.heard (.inr (by rw [hp]; simp))
    · show ∀ id ∈ (f.enqueueAll pending).replayable, id < (f.enqueueAll pending).inbox.length
      rw [hr, hi]; exact hlog.known
    · exact fun _ hpc => absurd hpc (by simp)
    · exact fun _ hpc => absurd hpc (by simp)
    · exact fun _ hpc => absurd hpc (by simp)
    · exact fun _ hpc => absurd hpc (by simp)
    · show _ → _ → ∀ id ∈ (f.enqueueAll pending).replayable,
        id ∈ (f.enqueueAll pending).acked ∨ id ∈ (f.enqueueAll pending).queued
      rw [hk, hr, hq]
      intro _ _ id hid
      rw [List.mem_append]
      exact hlog.read pending hp id hid
  | settled hp =>
    exact ⟨hlife, hent, hord.frame (HostFlow.queued_frame rfl rfl rfl) rfl rfl rfl,
      hlog.settle rfl rfl rfl (HostFlow.queued_frame rfl rfl rfl) rfl (.inr rfl)
        (fun ha => hlog.placed ha (.inl hp))⟩

/-- What leaves inbox and acks as they are, and what waits. -/
theorem keep (h : TellOrder old first f) (hlife : Lifecycle f'.toLife) (hent : Entries f')
    (hq : f'.queued = f.queued) (hi : f'.inbox = f.inbox) (ha : f'.acked = f.acked)
    (hd : f'.dropped = f.dropped) (hr : f'.replayable = f.replayable)
    (hp : f'.phase = f.phase) (hact : f'.activated = true → f.activated = true) :
    TellOrder old first f' :=
  ⟨hlife, hent, h.inOrder.frame hq hi ha hd,
    h.backlog.mono (hi ▸ List.prefix_refl _) (ha ▸ List.Subset.refl _)
      (hd ▸ List.Subset.refl _) (fun _ hid => .inr (hq ▸ hid)) hr hp hact⟩

/-- **The entry in hand is acked.** -/
theorem ack (h : TellOrder old first f) {k : ℕ} (hlife : Lifecycle f'.toLife)
    (hent : Entries f') (hq : f.queued = k :: f'.queued) (hi : f'.inbox = f.inbox)
    (ha : f'.acked = k :: f.acked) (hd : f'.dropped = f.dropped)
    (hr : f'.replayable = f.replayable) (hp : f'.phase = f.phase)
    (hact : f'.activated = true → f.activated = true) : TellOrder old first f' := by
  refine ⟨hlife, hent, h.inOrder.ack hq hi ha hd,
    h.backlog.mono (hi ▸ List.prefix_refl _) (ha ▸ List.subset_cons_self _ _)
      (hd ▸ List.Subset.refl _) (fun id hid => ?_) hr hp hact⟩
  rw [hq] at hid
  rcases List.mem_cons.mp hid with rfl | hid
  · exact .inl (ha ▸ List.mem_cons_self)
  · exact .inr hid

theorem of_working (h : TellOrder old first f) (hsm : f.Smooth f')
    (hs : f.Working g f') : TellOrder old first f' := by
  have hlife := h.life.of_working hs
  have hent := h.entries.of_working hs
  have hnot : ∀ {method args c}, (f.workers g).holding ≠ some (.call method args c) := by
    intro method args c hc
    obtain ⟨id, e, -, he⟩ := h.entries.held g _ hc
    exact absurd he (by simp)
  -- the worker moves and has in hand what it had
  have hmove : ∀ {w : WorkerStage}, (f.workers g).alive = true →
      w.toAck = (f.workers g).toAck → f'.workerPromise = f.workerPromise →
      f'.workers = update f.workers g w → f'.mailbox = f.mailbox → f'.inbox = f.inbox →
      f'.acked = f.acked → f'.dropped = f.dropped → f'.replayable = f.replayable →
      f'.phase = f.phase → f'.activated = f.activated → TellOrder old first f' :=
    fun hg hk hp hw hm hi ha hd hr hph hact =>
      h.keep hlife hent (HostFlow.queued_move_self h.life hg hk hp hw (by rw [hm])) hi ha hd
        hr hph (fun h₁ => hact ▸ h₁)
  cases hs with
  | dequeue hg =>
    have hlive : (f.workers g).alive = true := by rw [hg]; rfl
    exact h.keep hlife hent
      (HostFlow.queued_dequeue (h.life.alive g hlive).2 (by rw [hg]; rfl))
      rfl rfl rfl rfl rfl id
  | exit hg =>
    exact hmove (w := .done) (by rw [hg]; rfl) (by rw [hg]; rfl)
      rfl rfl rfl rfl rfl rfl rfl rfl rfl
  | refuse e hg => exact absurd (by rw [hg]; rfl) hnot
  | ignore hg =>
    exact hmove (w := .unhandled _) (by rw [hg]; rfl) (by rw [hg]; rfl)
      rfl rfl rfl rfl rfl rfl rfl rfl rfl
  | @start item hg =>
    exact hmove (w := .turn item) (by rw [hg]; rfl) (by rw [hg]; rfl)
      rfl rfl rfl rfl rfl rfl rfl rfl rfl
  | resolve r hg => exact absurd (by rw [hg]; rfl) hnot
  | commit hg =>
    exact hmove (w := .acking _ _) (by rw [hg]; rfl) (by rw [hg]; rfl)
      rfl rfl rfl rfl rfl rfl rfl rfl rfl
  | @ack item id hg =>
    have hk : (f.workers g).toAck = some id := by
      rw [hg]
      exact h.entries.acking g item id hg
    exact h.ack hlife hent
      (HostFlow.queued_cons h.life (by rw [hg]; rfl) hk rfl rfl rfl rfl)
      rfl rfl rfl rfl rfl (fun ha => ha)
  | turn hg => rw [HostFlow.setWorker_self hg]; exact h
  | flush hg => rw [HostFlow.setWorker_self hg]; exact h
  | @fail item e hg => exact absurd rfl (hsm.turn item)
  | @unhandled id ok hg =>
    exact h.ack hlife hent
      (HostFlow.queued_cons h.life (by rw [hg]; rfl) (by rw [hg]; rfl) rfl rfl rfl rfl)
      rfl (hsm.unhandled id rfl) rfl rfl rfl (fun ha => ha)
  | finish hg =>
    exact hmove (w := .looping) (by rw [hg]; rfl) (by rw [hg]; rfl)
      rfl rfl rfl rfl rfl rfl rfl rfl rfl

theorem of_deactivating (h : TellOrder old first f) (hs : f.Deactivating f') :
    TellOrder old first f' := by
  have hlife := h.life.of_deactivating hs
  have hent := h.entries.of_deactivating hs
  cases hs with
  | ending hf =>
    exact h.keep hlife hent (HostFlow.queued_frame rfl rfl rfl) rfl rfl rfl rfl rfl id
  | drop errors hf =>
    have hand : f.inHand = none := HostFlow.inHand_of_dead (h.life.of_awaited hf).1
    refine h.keep hlife hent ?_ rfl rfl rfl rfl rfl id
    rw [HostFlow.queued, HostFlow.queued, hand]
    rfl
  | fail hd =>
    exact h.keep hlife hent (HostFlow.queued_frame rfl rfl rfl) rfl rfl rfl rfl rfl id
  | finish hd =>
    exact h.keep hlife hent (HostFlow.queued_frame rfl rfl rfl) rfl rfl rfl rfl rfl
      (fun h₁ => absurd h₁ (by simp))

theorem of_closing (h : TellOrder old first f) (hs : f.Closing f') :
    TellOrder old first f' := by
  have hlife := h.life.of_closing hs
  have hent := h.entries.of_closing h.life hs
  cases hs with
  | none => exact h
  | close hd ha hg =>
    exact h.keep hlife hent (HostFlow.queued_closeMailbox h.life) rfl rfl rfl rfl rfl id
  | unattended _ hd ha hg => exact absurd hg (h.life.present ha (by simp [hd])).1

/-- **A `tell()` goes on** with its mailbox open and its own entry neither past
nor waiting, and is accepted only after all that is before it. -/
theorem of_telling {t : ℕ} (h : TellOrder old first f)
    (hG : ∀ type payload id, f.tells t = some ⟨type, payload, .appended id⟩ →
      f.mailbox.closed = false ∧ ¬f.Past old id ∧ id ∉ f.queued
        ∧ ((f.mailbox.enqueue (.tell type payload id)).result = .accepted →
          ∀ i < id, f.Past old i ∨ i ∈ f.queued))
    (hs : f.Telling t f') : TellOrder old first f' := by
  have hlife := h.life.of_telling hs
  have hent := h.entries.of_telling hs
  have hlt : ∀ {type payload id}, f.tells t = some ⟨type, payload, .appended id⟩ →
      id < f.inbox.length := fun ht =>
    (List.getElem?_eq_some_iff.mp (h.entries.appended t _ _ ht rfl)).1
  have hlog := h.backlog
  cases hs with
  | move ht hp hp' =>
    exact h.keep hlife hent (HostFlow.queued_frame rfl rfl rfl) rfl rfl rfl rfl rfl id
  | append ht =>
    exact ⟨hlife, hent, h.inOrder.append (HostFlow.queued_frame rfl rfl rfl) rfl rfl rfl,
      hlog.mono (List.prefix_append _ _) (List.Subset.refl _) (List.Subset.refl _)
        (fun _ hid => .inr hid) rfl rfl id⟩
  | @closed type payload id ht hr =>
    have hopen := (hG type payload id ht).1
    rcases f.mailbox.enqueue_cases (.tell type payload id) with ⟨-, hc⟩ | ⟨he, -⟩
      | ⟨w, m, he, -⟩ | ⟨m, he, -⟩
    · exact absurd hc (by simp [hopen])
    all_goals rw [he] at hr; exact absurd hr (by simp)
  | @drop type payload id ht hr =>
    obtain ⟨-, -, hn, -⟩ := hG type payload id ht
    exact ⟨hlife, hent, h.inOrder.drop (hlt ht) hn (HostFlow.queued_frame rfl rfl rfl) rfl rfl rfl,
      hlog.mono (List.prefix_refl _) (List.Subset.refl _) (List.subset_cons_self _ _)
        (fun _ hid => .inr hid) rfl rfl (fun ha => ha)⟩
  | @accept type payload id ht hr =>
    obtain ⟨-, hp, hn, hb⟩ := hG type payload id ht
    have hq' : (f.enqueue (.tell type payload id)).queued = f.queued ++ [id] := by
      rw [HostFlow.queued_enqueue h.life, if_pos hr]
      rfl
    have hord := h.inOrder.snoc (hlt ht) hp hn (hb hr) hq' rfl rfl rfl
    have hlog' : Backlog old first (f.enqueue (.tell type payload id)) :=
      hlog.mono (List.prefix_refl _) (List.Subset.refl _) (List.Subset.refl _)
        (fun _ hid => .inr (hq' ▸ List.mem_append_left _ hid)) rfl rfl (fun ha => ha)
    exact ⟨hlife, hent, hord.frame rfl rfl rfl rfl,
      hlog'.mono (List.prefix_refl _) (List.Subset.refl _) (List.Subset.refl _)
        (fun _ hid => .inr hid) rfl rfl (fun ha => ha)⟩
  | @dropAcked type payload id ht =>
    have hgone : f.Gone old id := .inl (h.entries.dropping t _ id ht rfl)
    exact ⟨hlife, hent, h.inOrder.ackDropped hgone (HostFlow.queued_frame rfl rfl rfl) rfl rfl rfl,
      hlog.mono (List.prefix_refl _) (List.subset_cons_self _ _) (List.Subset.refl _)
        (fun _ hid => .inr hid) rfl rfl (fun ha => ha)⟩
  | dropFailed ht =>
    exact h.keep hlife hent (HostFlow.queued_frame rfl rfl rfl) rfl rfl rfl rfl rfl
      (fun ha => ha)

end TellOrder

/-! ## Runs

The condition says at which steps the order may be lost: a tell that goes on
before one with an earlier entry, and an entry placed before the backlog. -/

variable {S Env Op : Type}

/-- **The step is part of tells being handled**, and no storage operation
fails in it. -/
def Act.undisturbed : Act Env → Bool
  | callStart _ _ _ => false
  | callResume _ => false
  | tellLand _ ok => ok
  | activation _ ok => ok
  | worker _ _ ok => ok
  | save _ ok => ok
  | _ => true

instance (f : HostFlow) (n : ℕ) : Decidable (f.Room n) :=
  inferInstanceAs (Decidable (_ ∧ _))

/-- **When tells are applied in inbox order**: a `tell()` goes on after its
append with the mailbox open and its entry neither acked nor dropped nor
waiting, and unless it is dropped, every entry before its own is one of
these; and when a backlog is placed, none of it is acked, dropped or waiting
by then, and the mailbox is open and has room for it. -/
def HostFlow.keepsOrder (old : List ℕ) (f : HostFlow) : Act Env → Bool
  | .tellResume t =>
    match f.tells t with
    | some ⟨type, payload, .appended id⟩ =>
      decide (f.mailbox.closed = false ∧ ¬f.Past old id ∧ id ∉ f.queued
        ∧ ((f.mailbox.enqueue (.tell type payload id)).result = .accepted →
          ∀ i < id, f.Past old i ∨ i ∈ f.queued))
    | _ => true
  | .activation _ _ =>
    match f.phase with
    | .replaying pending =>
      decide ((∀ r ∈ pending, ¬f.Past old r.id ∧ r.id ∉ f.queued)
        ∧ (pending.length = 0 ∨ f.Room pending.length))
    | _ => true
  | _ => true

namespace TellOrder

variable {cfg : HostConfig S Env Op} {s s' : Sys S Env Op} {old : List ℕ} {first g : ℕ}
  {env : Env}

/-- An activation in which no storage operation fails. -/
theorem smooth_actStep (h : s.actStep cfg env true = some s') :
    s.flow.Smooth s'.flow := by
  have herr := (Sys.flow_actStep h).errors_eq
  refine ⟨fun item he => ?_, fun id he => ?_, fun hp hp' => ?_⟩
  · exact absurd (herr.symm.trans he) (List.cons_ne_self _ _).symm
  · exact absurd (herr.symm.trans he) (List.cons_ne_self _ _).symm
  · have hpc := Replay.activating_of_phase hp
    simp only [Sys.actStep, hpc, if_true, Option.some.injEq] at h
    rw [← h] at hp'
    exact absurd hp' (by simp [ActPc.phase])

/-- A worker whose turn does not fail, nor its storage operation. -/
theorem smooth_workerStep (h : s.workerStep cfg g env true = some s')
    (hturn : ∀ item, s'.flow.errors ≠ .turn item :: s.flow.errors) :
    s.flow.Smooth s'.flow := by
  have hm := Sys.flow_workerStep h
  refine ⟨hturn, fun id he => ?_, fun hp hp' => ?_⟩
  · by_cases hg : ∃ id, s.host.workers g = .unhandled id
    · obtain ⟨id', hg⟩ := hg
      simp only [Sys.workerStep, hg, if_true, Option.some.injEq] at h
      subst h
      have hid : ErrorSource.unhandled id' = .unhandled id := (List.cons.inj he).1
      obtain rfl := ErrorSource.unhandled.inj hid
      rfl
    · rcases hm.errors_cases with hsame | ⟨item, hf⟩ | ⟨id', hw⟩
      · exact absurd (hsame.symm.trans he) (List.cons_ne_self _ _).symm
      · exact absurd hf (hturn item)
      · refine absurd ⟨id', ?_⟩ hg
        revert hw
        show (s.host.workers g).stage = _ → _
        cases s.host.workers g <;> simp [WorkerPc.stage]
  · rw [hm.phase_eq, hp] at hp'
    exact absurd hp' (by simp)

/-- What the condition says of a `tell()` that goes on. -/
theorem keepsOrder_tellResume {f : HostFlow} {t : ℕ}
    (hG : f.keepsOrder old (.tellResume t : Act Env) = true) {type : String}
    {payload : Json} {id : ℕ} (ht : f.tells t = some ⟨type, payload, .appended id⟩) :
    f.mailbox.closed = false ∧ ¬f.Past old id ∧ id ∉ f.queued
      ∧ ((f.mailbox.enqueue (.tell type payload id)).result = .accepted →
        ∀ i < id, f.Past old i ∨ i ∈ f.queued) := by
  simpa only [HostFlow.keepsOrder, ht, decide_eq_true_eq] using hG

/-- **One step of a host keeps the order of tells**, under its condition. -/
theorem step {a : Act Env} (h : TellOrder old first s.flow) (hu : a.undisturbed = true)
    (hG : s.flow.keepsOrder old a = true)
    (hturn : ∀ g env ok, a = .worker g env ok →
      ∀ item, s'.flow.errors ≠ .turn item :: s.flow.errors)
    (hs : s.step cfg a = some s') : TellOrder old first s'.flow := by
  have hm := Sys.flow_step hs
  cases a with
  | activate => exact h.of_opening hm
  | tellStart t type payload =>
    obtain ⟨-, f₁, task, ho, hp, he⟩ := hm
    have h₁ := h.of_opening ho
    rw [he]
    exact h₁.keep h₁.life (h₁.entries.setTell_none hp) (HostFlow.queued_frame rfl rfl rfl)
      rfl rfl rfl rfl rfl id
  | tellLand t ok =>
    refine h.of_telling (fun type payload id ht => ?_) hm
    have ht' : s.host.tells t = some ⟨type, payload, .appended id⟩ := ht
    simp [Sys.step, Sys.tellLand, ht'] at hs
  | tellResume t => exact h.of_telling (fun _ _ _ => keepsOrder_tellResume hG) hm
  | callStart c method args => exact absurd hu (by simp [Act.undisturbed])
  | callResume c => exact absurd hu (by simp [Act.undisturbed])
  | activation env ok =>
    obtain rfl : ok = true := hu
    refine h.of_activating (fun pending hp => ?_) (smooth_actStep hs) hm
    simp only [HostFlow.keepsOrder, hp, decide_eq_true_eq] at hG
    exact ⟨hG.1, hG.2.imp_left List.length_eq_zero_iff.mp⟩
  | worker g env ok =>
    obtain rfl : ok = true := hu
    exact h.of_working (smooth_workerStep hs (hturn g env true rfl)) hm
  | deactivate env => exact h.of_closing hm
  | deactivation env => exact h.of_deactivating hm
  | destroy env => exact h.of_closing hm
  | idleFire env => exact h.of_closing hm
  | flushResume k =>
    obtain ⟨es, he⟩ := hm
    rw [he]
    exact h.keep h.life (h.entries.frame rfl rfl rfl rfl rfl)
      (HostFlow.queued_frame rfl rfl rfl) rfl rfl rfl rfl rfl id
  | _ =>
    have he : s'.flow = s.flow := hm
    rw [he]
    exact h

/-- A `tell()` that goes on applies nothing. -/
theorem still_telling {f f' : HostFlow} {t : ℕ} (h : TellOrder old first f)
    (hG : ∀ type payload id, f.tells t = some ⟨type, payload, .appended id⟩ →
      id ∉ f.acked) (hs : f.Telling t f') : f.Still old f' := by
  cases hs with
  | append ht => exact ⟨h.inOrder.applied_append rfl rfl rfl, List.prefix_append _ _⟩
  | @drop type payload id ht hr =>
    exact ⟨InOrder.applied_drop (hG type payload id ht) rfl rfl rfl, List.prefix_refl _⟩
  | @dropAcked type payload id ht =>
    have hgone : f.Gone old id := .inl (h.entries.dropping t _ id ht rfl)
    exact ⟨InOrder.applied_ackDropped hgone rfl rfl rfl, List.prefix_refl _⟩
  | _ => exact .of_eq rfl rfl rfl

/-- **Only a worker applies anything.** -/
theorem still {a : Act Env} (h : TellOrder old first s.flow)
    (hG : s.flow.keepsOrder old a = true) (ha : ∀ g env ok, a ≠ .worker g env ok)
    (hs : s.step cfg a = some s') : s.flow.Still old s'.flow := by
  have hm := Sys.flow_step hs
  cases a with
  | activate => exact .of_opening hm
  | tellStart t type payload =>
    obtain ⟨-, f₁, task, ho, hp, he⟩ := hm
    rw [he]
    exact (HostFlow.Still.of_opening ho).trans (.of_eq rfl rfl rfl)
  | tellLand t ok =>
    refine still_telling h (fun type payload id ht => ?_) hm
    have ht' : s.host.tells t = some ⟨type, payload, .appended id⟩ := ht
    simp [Sys.step, Sys.tellLand, ht'] at hs
  | tellResume t =>
    exact still_telling h (fun _ _ _ ht hack =>
      (keepsOrder_tellResume hG ht).2.1 (.inl hack)) hm
  | callStart c method args =>
    obtain ⟨-, ⟨-, hc⟩ | ⟨f₁, task, ho, -, he⟩⟩ := hm
    · exact .of_calling hc
    · rw [he]
      exact (HostFlow.Still.of_opening ho).trans (.of_eq rfl rfl rfl)
  | callResume c => exact .of_calling hm.2
  | activation env ok => exact .of_activating old hm
  | worker g env ok => exact absurd rfl (ha g env ok)
  | deactivate env => exact .of_closing h.life hm
  | deactivation env => exact .of_deactivating hm
  | destroy env => exact .of_closing h.life hm
  | idleFire env => exact .of_closing h.life hm
  | flushResume k =>
    obtain ⟨es, he⟩ := hm
    rw [he]
    exact .of_eq rfl rfl rfl
  | _ =>
    have he : s'.flow = s.flow := hm
    rw [he]
    exact .of_eq rfl rfl rfl

end TellOrder
