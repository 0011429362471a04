import Actjs.InFlight
import Actjs.MailboxOrder

/-!
# Replaying the inbox

An activation ends by reading the pending entries of the durable inbox and
placing them in its new mailbox. `Replay` says how the entries placed so far
relate to those that were pending when the activation began: none is placed
twice, and either nothing was placed yet or they come first, in inbox
order.

The replay runs on a host that is activated already, and it ignores whether
the mailbox takes what it places. A backlog the mailbox has no room for is
cut short, a mailbox that closes meanwhile ends it, and a `tell()` that goes
on meanwhile overtakes it, or has its entry placed twice. The theorem is
about the runs in which none of this happens.
-/

open Function (update)

/-- The inbox entries placed in the current mailbox, in order. -/
def HostFlow.told (f : HostFlow) : List ℕ := f.accepted.filterMap Item.inboxId?

/-- The inbox entry of an item. -/
theorem filterMap_inboxId?_append (items : List Item) (item : Item) :
    (items ++ [item]).filterMap Item.inboxId?
      = items.filterMap Item.inboxId? ++ item.inboxId?.toList := by
  rw [List.filterMap_append]
  cases h : item.inboxId? <;> simp [h]

namespace HostFlow

variable (f : HostFlow)

theorem told_enqueue (item : Item) :
    (f.enqueue item).told
      = if (f.mailbox.enqueue item).result = .accepted
          then f.told ++ item.inboxId?.toList else f.told := by
  rw [told, enqueue]
  dsimp only
  split
  · exact filterMap_inboxId?_append _ _
  · rfl

/-- There is room in the mailbox for `n` items, not counting those the
workers that wait take at once. -/
def Room (n : ℕ) : Prop :=
  f.mailbox.closed = false
    ∧ n + f.mailbox.buffer.length
        ≤ f.mailbox.capacity + f.mailbox.waiters.length

variable {f}

/-- Where there is room for one more, an item is accepted, and room for the
others is left. -/
theorem Room.enqueue {n : ℕ} (h : f.Room (n + 1)) (item : Item) :
    (f.mailbox.enqueue item).result = .accepted
      ∧ (f.enqueue item).Room n := by
  obtain ⟨hc, hn⟩ := h
  unfold HostFlow.enqueue Room
  rcases f.mailbox.enqueue_cases item with ⟨he, hc'⟩ | ⟨he, -, hw, hf⟩
    | ⟨w, m, he, -, hws, hb, hc', hcap⟩
    | ⟨m, he, -, hw, hw', hf, hb, hc', hcap⟩ <;> rw [he]
  · exact absurd hc (by simp [hc'])
  · have hfull : f.mailbox.capacity ≤ f.mailbox.buffer.length := by
      simpa [Mailbox.isFull] using hf
    rw [hw, List.length_nil] at hn
    omega
  · refine ⟨rfl, hc', ?_⟩
    rw [hws, List.length_cons] at hn
    show n + m.buffer.length ≤ m.capacity + m.waiters.length
    rw [hb, hcap]
    omega
  · refine ⟨rfl, hc', ?_⟩
    rw [hw, List.length_nil] at hn
    show n + m.buffer.length ≤ m.capacity + m.waiters.length
    rw [hb, hcap, hw', List.length_append, List.length_singleton,
      List.length_nil]
    omega

/-- **A backlog there is room for is placed as a whole**, in order. -/
theorem told_enqueueAll {rs : List InboxRecord} (h : rs = [] ∨ f.Room rs.length) :
    (f.enqueueAll rs).told = f.told ++ rs.map InboxRecord.id := by
  induction rs generalizing f with
  | nil => exact (List.append_nil _).symm
  | cons r rs ih =>
    have h := h.resolve_left (List.cons_ne_nil _ _)
    obtain ⟨hr, hroom⟩ :=
      h.enqueue (.tell r.entry.type r.entry.payload r.id)
    rw [enqueueAll, hr]
    show ((f.enqueue _).enqueueAll rs).told = _
    rw [ih (.inr hroom), told_enqueue, if_pos hr, List.map_cons]
    show f.told ++ [r.id] ++ _ = _
    rw [List.append_assoc, List.singleton_append]

end HostFlow

/-! ## What the workers hold

Whatever a worker has in its hands came out of the mailbox, and so was placed
there by a `tell()` or by the replay; what it acks is the entry of that item.
-/

/-- **What a worker has in its hands was placed in the mailbox**, and what
it acks is what it has in its hands. -/
structure Held (f : HostFlow) : Prop where
  entry : ∀ g id, (f.workers g).heldEntry = some id → id ∈ f.told
  acking : ∀ g item id, f.workers g = .acking item id →
    item.inboxId? = some id

namespace Held

variable {f f' : HostFlow} {g : ℕ}

theorem frame (h : Held f) (hw : f'.workers = f.workers)
    (ha : f'.accepted = f.accepted) : Held f' := by
  refine ⟨?_, by rw [hw]; exact h.acking⟩
  rw [hw, HostFlow.told, ha]
  exact h.entry

/-- Worker `g` moves, to a stage with nothing in hand or with what it had. -/
theorem move (h : Held f) {w : WorkerStage}
    (hw : f'.workers = update f.workers g w) (ha : f'.accepted = f.accepted)
    (hk : ∀ id, w.heldEntry = some id → (f.workers g).heldEntry = some id)
    (hack : ∀ item id, w = .acking item id → item.inboxId? = some id) :
    Held f' := by
  refine ⟨fun g' id hg' => ?_, fun g' item id hg' => ?_⟩ <;>
    rw [hw, Function.update_apply] at hg'
  · rw [HostFlow.told, ha]
    split at hg'
    · exact h.entry g id (hk id hg')
    · exact h.entry g' id hg'
  · split at hg'
    · exact hack item id hg'
    · exact h.acking g' item id hg'

theorem enqueue (h : Held f) (item : Item) : Held (f.enqueue item) := by
  unfold HostFlow.enqueue
  rcases f.mailbox.enqueue_cases item with ⟨he, -⟩ | ⟨he, -⟩
    | ⟨w, m, he, -⟩ | ⟨m, he, -⟩ <;> rw [he]
  · exact h.frame rfl rfl
  · exact h.frame rfl rfl
  · have hgrow : ∀ id ∈ f.told,
        id ∈ (f.accepted ++ [item]).filterMap Item.inboxId? := fun id hid => by
      rw [filterMap_inboxId?_append]
      exact List.mem_append_left _ hid
    refine ⟨fun g' id hg' => ?_, fun g' item' id hg' => ?_⟩
    · change (update f.workers w (.received item) g').heldEntry = _ at hg'
      show id ∈ (f.accepted ++ [item]).filterMap Item.inboxId?
      rw [Function.update_apply] at hg'
      split at hg'
      · rw [filterMap_inboxId?_append, show item.inboxId? = some id from hg']
        exact List.mem_append_right _ List.mem_cons_self
      · exact hgrow id (h.entry g' id hg')
    · change update f.workers w (.received item) g' = _ at hg'
      rw [Function.update_apply] at hg'
      split at hg'
      · exact absurd hg' (by simp)
      · exact h.acking g' item' id hg'
  · refine ⟨fun g' id hg' => ?_, h.acking⟩
    show id ∈ (f.accepted ++ [item]).filterMap Item.inboxId?
    rw [filterMap_inboxId?_append]
    exact List.mem_append_left _ (h.entry g' id hg')

theorem enqueueAll (h : Held f) (rs : List InboxRecord) :
    Held (f.enqueueAll rs) := by
  induction rs generalizing f with
  | nil => exact h
  | cons r rs ih =>
    rw [HostFlow.enqueueAll]
    split
    · exact h
    · exact ih (h.enqueue _)

/-- What a worker dequeues was placed in the mailbox. -/
theorem dequeue (h : Held f) (hb : f.mailbox.buffer ⊆ f.accepted) :
    Held (f.dequeue g) := by
  unfold HostFlow.dequeue
  rcases f.mailbox.dequeue_cases g with ⟨x, m, he, hbx, -⟩ | ⟨he, -⟩
    | ⟨m, he, -⟩ <;> rw [he]
  · refine ⟨fun g' id hg' => ?_, fun g' item id hg' => ?_⟩
    · change ((f.setWorker g (.received x)).workers g').heldEntry = _ at hg'
      rw [HostFlow.setWorker_workers] at hg'
      split at hg'
      · refine List.mem_filterMap.mpr ⟨x, hb ?_, hg'⟩
        rw [hbx]
        exact List.mem_cons_self
      · exact h.entry g' id hg'
    · change (f.setWorker g (.received x)).workers g' = _ at hg'
      rw [HostFlow.setWorker_workers] at hg'
      split at hg'
      · exact absurd hg' (by simp)
      · exact h.acking g' item id hg'
  · exact h.move rfl rfl (by simp [WorkerStage.heldEntry]) (by simp)
  · exact h.move rfl rfl (by simp [WorkerStage.heldEntry]) (by simp)

theorem closeMailbox (h : Held f) : Held f.closeMailbox := by
  refine ⟨fun g' id hg' => ?_, fun g' item id hg' => ?_⟩
  · rcases f.closeMailbox_workers g' with he | he <;> rw [he] at hg'
    · exact h.entry g' id hg'
    · exact absurd hg' (by simp [WorkerStage.heldEntry])
  · rcases f.closeMailbox_workers g' with he | he <;> rw [he] at hg'
    · exact h.acking g' item id hg'
    · exact absurd hg' (by simp)

end Held

/-! ## The replay

The entries placed so far are a prefix of those to replay, or all of them and
then those of tells that came later. While the inbox is read nothing is placed
yet. -/

/-- **How the entries placed relate to those to replay.** -/
structure Replay (f : HostFlow) : Prop where
  held : Held f
  once : f.told.Nodup
  sorted : f.replayable.Pairwise (· < ·)
  first : f.told = [] ∨ f.replayable <+: f.told
  /-- Until the inbox is read, what was pending still is. -/
  unread : f.phase = .loading ∨ f.phase = .opening ∨ f.phase = .reading →
    f.told = [] → ∃ n ≤ f.inbox.length,
      f.replayable
        = (pendingInbox (f.inbox.take n) f.acked).map InboxRecord.id
  read : ∀ pending, f.phase = .replaying pending →
    (pending.map InboxRecord.id).Nodup
      ∧ (f.told = [] → f.replayable <+: pending.map InboxRecord.id)
  placed : f.activated = true → f.phase = .finishing ∨ f.phase = .idle →
    f.replayable ⊆ f.told

namespace Replay

variable {f f' : HostFlow} {g : ℕ}

/-- A step that places nothing, acks nothing, and leaves the activation
where it is. -/
theorem keep (h : Replay f) (hheld : Held f')
    (ha : f'.accepted = f.accepted) (hr : f'.replayable = f.replayable)
    (hi : f'.inbox = f.inbox) (hk : f'.acked = f.acked)
    (hp : f'.phase = f.phase)
    (hact : f'.activated = true → f.activated = true) : Replay f' := by
  have ht : f'.told = f.told := by rw [HostFlow.told, ha]; rfl
  refine ⟨hheld, ?_, ?_, ?_, ?_, ?_, fun h₁ => ?_⟩
  · rw [ht]; exact h.once
  · rw [hr]; exact h.sorted
  · rw [ht, hr]; exact h.first
  · rw [hp, ht, hi, hr, hk]; exact h.unread
  · rw [hp, ht, hr]; exact h.read
  · rw [hp, hr, ht]; exact h.placed (hact h₁)

/-- The replay does not depend on the rest of the flow. -/
theorem frame (h : Replay f) (hw : f'.workers = f.workers)
    (ha : f'.accepted = f.accepted) (hr : f'.replayable = f.replayable)
    (hi : f'.inbox = f.inbox) (hk : f'.acked = f.acked)
    (hp : f'.phase = f.phase)
    (hact : f'.activated = true → f.activated = true) : Replay f' :=
  h.keep (h.held.frame hw ha) ha hr hi hk hp hact

/-- Acking an entry leaves what is still to be read pending, unless it is
one of those and not placed yet. -/
theorem ack (h : Replay f) {id : ℕ} (hid : id ∈ f.replayable → id ∈ f.told) :
    Replay { f with acked := id :: f.acked } := by
  refine ⟨h.held.frame rfl rfl, h.once, h.sorted, h.first, ?_, h.read, h.placed⟩
  intro hp ht
  obtain ⟨n, hn, hr⟩ := h.unread hp ht
  refine ⟨n, hn, ?_⟩
  show f.replayable = (pendingInbox (f.inbox.take n) (id :: f.acked)).map _
  rw [pendingInbox_ack, hr]
  intro hm
  have := hid (by rw [hr]; exact hm)
  rw [show f.told = [] from ht] at this
  exact absurd this (by simp)

/-- Appending an entry to the inbox leaves those before it as they are. -/
theorem append (h : Replay f) (e : InboxEntry) :
    Replay { f with inbox := f.inbox ++ [e] } := by
  refine ⟨h.held.frame rfl rfl, h.once, h.sorted, h.first, ?_, h.read, h.placed⟩
  intro hp ht
  obtain ⟨n, hn, hr⟩ := h.unread hp ht
  refine ⟨n, ?_, ?_⟩
  · show n ≤ (f.inbox ++ [e]).length
    rw [List.length_append]
    exact Nat.le_add_right_of_le hn
  · show f.replayable
      = (pendingInbox ((f.inbox ++ [e]).take n) f.acked).map _
    rw [List.take_append_of_le_length hn, hr]

/-- An item is enqueued: a call, or a tell whose entry was not placed yet
and that does not overtake the replay. -/
theorem enqueue (h : Replay f) (item : Item)
    (hG : (f.mailbox.enqueue item).result = .accepted → ∀ id,
      item.inboxId? = some id → id ∉ f.told ∧ f.replayable ⊆ f.told) :
    Replay (f.enqueue item) := by
  by_cases hr : (f.mailbox.enqueue item).result = .accepted
  · have ht : (f.enqueue item).told = f.told ++ item.inboxId?.toList := by
      rw [HostFlow.told_enqueue, if_pos hr]
    have hG := hG hr
    refine ⟨h.held.enqueue item, ?_, h.sorted, ?_, fun hp hn => ?_,
      fun pending hp => ⟨(h.read pending hp).1, fun hn => ?_⟩,
      fun ha hp => ?_⟩
    · rw [ht]
      cases hid : item.inboxId? with
      | none => simpa using h.once
      | some id =>
        refine List.nodup_append.mpr ⟨h.once, by simp, ?_⟩
        rintro a ha b hb rfl
        obtain rfl : a = id := by simpa using hb
        exact (hG a hid).1 ha
    · rw [ht]
      rcases h.first with hn | hpre
      · cases hid : item.inboxId? with
        | none => exact .inl (by rw [hn]; rfl)
        | some id =>
          -- nothing was placed, so nothing is to be replayed
          have hnil : f.replayable = [] := by
            have := (hG id hid).2
            rw [hn] at this
            exact List.subset_nil.mp this
          refine .inr ?_
          show f.replayable <+: _
          rw [hnil]
          exact List.nil_prefix
      · exact .inr (hpre.trans (List.prefix_append _ _))
    · rw [ht] at hn
      exact h.unread hp (List.append_eq_nil_iff.mp hn).1
    · rw [ht] at hn
      exact (h.read pending hp).2 (List.append_eq_nil_iff.mp hn).1
    · rw [ht]
      exact List.Subset.trans (h.placed ha hp) (List.subset_append_left _ _)
  · refine h.keep (h.held.enqueue item) ?_ rfl rfl rfl rfl id
    rw [HostFlow.enqueue]
    dsimp only
    rw [if_neg hr]

/-! ### The steps -/

/-- An activation that begins has placed nothing. -/
theorem of_opening (h : Replay f) (hl : Lifecycle f.toLife)
    (hs : f.Opening f') : Replay f' := by
  cases hs with
  | none => exact h
  | refuse ha hp =>
    refine ⟨h.held.frame rfl rfl, h.once, h.sorted, h.first,
      fun hp' => absurd hp' (by simp), fun pending hp' => absurd hp' (by simp),
      fun ha' => ?_⟩
    exact absurd (show f.activated = true from ha') (by simp [ha])
  | begin capacity hc ha hp =>
    have hheld : ∀ g, (f.workers g).heldEntry = none :=
      fun g => Reading.tell.dead _ (hl.not_alive ha g)
    refine ⟨⟨fun g id hg => absurd hg (by simp [hheld g]), h.held.acking⟩,
      List.nodup_nil,
      (pendingInbox_sorted _ _).1, .inl rfl,
      fun _ _ => ⟨f.inbox.length, Nat.le_refl _, ?_⟩,
      fun pending hp' => absurd hp' (by simp), fun ha' => ?_⟩
    · show (pendingInbox f.inbox f.acked).map _
        = (pendingInbox (f.inbox.take f.inbox.length) f.acked).map _
      rw [List.take_length]
    · exact absurd (show f.activated = true from ha') (by simp [ha])

/-- **The replay places the backlog**, if it is read, and if there is room
for it. -/
theorem of_activating (h : Replay f) (hl : Lifecycle f.toLife) (hf : Fifo f)
    (hread : f.phase = .reading → f'.phase = .finishing →
      f.replayable ⊆ f.told)
    (hplace : ∀ pending, f.phase = .replaying pending →
      (∀ r ∈ pending, r.id ∉ f.told) ∧ (pending = [] ∨ f.Room pending.length))
    (hs : f.Activating f') : Replay f' := by
  cases hs with
  | load hp =>
    refine ⟨h.held.frame rfl rfl, h.once, h.sorted, h.first,
      fun _ => h.unread (.inl hp), fun pending hp' => absurd hp' (by simp),
      fun _ hp' => absurd hp' (by simp)⟩
  | opening hi =>
    have hp : f.phase = .loading ∨ f.phase = .opening := by
      cases hi with
      | earlier hp => exact .inr hp
      | now hp => exact .inl hp
    refine ⟨h.held.frame rfl rfl, h.once, h.sorted, h.first,
      fun _ => h.unread (hp.imp_right .inl),
      fun pending hp' => absurd hp' (by simp),
      fun _ hp' => absurd hp' (by simp)⟩
  | @activated i hi =>
    have hp : f.phase = .loading ∨ f.phase = .opening := by
      cases hi with
      | earlier hp => exact .inr hp
      | now hp => exact .inl hp
    have hdead := hl.not_alive (hl.early hp).1
    have hb : f.mailbox.buffer ⊆ f.accepted := by
      rw [hf.between (fun g item he => absurd (hdead g)
        (by rw [he]; simp [WorkerStage.alive]))]
      exact List.subset_append_right _ _
    have hheld : Held { f with
        inst := i
        activated := true
        workerPromise := some f.activation } := h.held.frame rfl rfl
    exact ⟨(hheld.dequeue (g := f.activation) hb).frame rfl rfl, h.once, h.sorted, h.first,
      fun _ => h.unread (hp.imp_right .inl),
      fun pending hp' => absurd hp' (by simp),
      fun _ hp' => absurd hp' (by simp)⟩
  | failed hp =>
    refine ⟨h.held.frame rfl rfl, h.once, h.sorted, h.first,
      fun hp' => absurd hp' (by simp), fun pending hp' => absurd hp' (by simp),
      fun ha _ => ?_⟩
    rcases hp with hp | hp | hp
    · exact absurd ha (by simp [(hl.early (.inl hp)).1])
    · exact absurd ha (by simp [(hl.early (.inr hp)).1])
    · exact hread hp rfl
  | read hp =>
    refine ⟨h.held.frame rfl rfl, h.once, h.sorted, h.first,
      fun hp' => absurd hp' (by simp), fun pending hp' => ?_,
      fun _ hp' => absurd hp' (by simp)⟩
    obtain rfl := Phase.replaying.inj hp'
    refine ⟨(pendingInbox_sorted _ _).1.imp Nat.ne_of_lt, fun ht => ?_⟩
    obtain ⟨n, -, hr⟩ := h.unread (.inr (.inr hp)) ht
    show f.replayable <+: _
    rw [hr]
    exact (pendingInbox_take _ _ _).map _
  | @replayed pending hp =>
    obtain ⟨hnew, hroom⟩ := hplace pending hp
    obtain ⟨hnd, hpre⟩ := h.read pending hp
    have ht : (f.enqueueAll pending).told
        = f.told ++ pending.map InboxRecord.id := HostFlow.told_enqueueAll hroom
    have hr : (f.enqueueAll pending).replayable = f.replayable := by
      rw [f.enqueueAll_frame pending]
    have hfirst : (f.enqueueAll pending).replayable
        <+: (f.enqueueAll pending).told := by
      rw [hr, ht]
      rcases h.first with hn | hpre'
      · rw [hn, List.nil_append]
        exact hpre hn
      · exact hpre'.trans (List.prefix_append _ _)
    refine ⟨(h.held.enqueueAll pending).frame rfl rfl, ?_, ?_, .inr hfirst,
      fun hp' => absurd hp' (by simp), fun pending hp' => absurd hp' (by simp),
      fun _ _ => hfirst.subset⟩
    · show (f.enqueueAll pending).told.Nodup
      rw [ht]
      refine List.nodup_append.mpr ⟨h.once, hnd, ?_⟩
      rintro a ha b hb rfl
      obtain ⟨r, hr, rfl⟩ := List.mem_map.mp hb
      exact hnew r hr ha
    · show (f.enqueueAll pending).replayable.Pairwise _
      rw [hr]
      exact h.sorted
  | settled hp =>
    exact ⟨h.held.frame rfl rfl, h.once, h.sorted, h.first,
      fun hp' => absurd hp' (by simp), fun pending hp' => absurd hp' (by simp),
      fun ha _ => h.placed ha (.inl hp)⟩

/-- A worker acks only what was placed. -/
theorem of_working (h : Replay f) (hl : Lifecycle f.toLife) (hf : Fifo f)
    (hs : f.Working g f') : Replay f' := by
  have hmove : ∀ {w : WorkerStage},
      (∀ id, w.heldEntry = some id → (f.workers g).heldEntry = some id) →
      (∀ item id, w = .acking item id → item.inboxId? = some id) →
      Replay (f.setWorker g w) := fun hk hack =>
    h.keep (h.held.move rfl rfl hk hack) rfl rfl rfl rfl rfl id
  cases hs with
  | dequeue hg =>
    have hb : f.mailbox.buffer ⊆ f.accepted := by
      have hp := (hl.alive g (by rw [hg]; rfl)).2
      rw [hf.accepted_eq hl (fun g' item hg' he => by
        obtain rfl := Option.some.inj (hp.symm.trans hg')
        exact absurd (hg.symm.trans he) (by simp))]
      exact List.subset_append_right _ _
    exact h.keep (h.held.dequeue hb) rfl rfl rfl rfl rfl id
  | exit hg => exact hmove (by simp [WorkerStage.heldEntry]) (by simp)
  | refuse e hg =>
    exact (hmove (w := .looping) (by simp [WorkerStage.heldEntry])
      (by simp)).frame rfl rfl rfl rfl rfl rfl id
  | ignore hg =>
    exact (hmove (w := .unhandled _) (fun id hid => by rw [hg]; exact hid)
      (by simp)).frame rfl rfl rfl rfl rfl rfl id
  | start hg =>
    exact (hmove (w := .turn _) (fun id hid => by rw [hg]; exact hid)
      (by simp)).frame rfl rfl rfl rfl rfl rfl id
  | resolve r hg =>
    exact (hmove (w := .ended _) (fun id hid => by rw [hg]; exact hid)
      (by simp)).frame rfl rfl rfl rfl rfl rfl id
  | @commit type payload id hg =>
    refine (hmove (w := .acking (.tell type payload id) id)
      (fun id' hid => by rw [hg]; exact hid) ?_).frame
        rfl rfl rfl rfl rfl rfl (fun ha => ha)
    rintro item id' he
    obtain ⟨rfl, rfl⟩ := WorkerStage.acking.inj he
    rfl
  | @ack item id hg =>
    have hid : id ∈ f.told := h.held.entry g id (by
      rw [hg]
      exact h.held.acking g item id hg)
    exact (hmove (w := .ended item) (fun id' hid' => by rw [hg]; exact hid')
      (by simp)).ack (fun _ => hid)
  | turn hg => rw [HostFlow.setWorker_self hg]; exact h
  | flush hg => rw [HostFlow.setWorker_self hg]; exact h
  | fail e hg =>
    exact (hmove (w := .looping) (by simp [WorkerStage.heldEntry])
      (by simp)).frame rfl rfl rfl rfl rfl rfl id
  | @unhandled id ok hg =>
    have hid : id ∈ f.told := h.held.entry g id (by rw [hg]; rfl)
    have h₁ : Replay (f.setWorker g .looping) :=
      hmove (by simp [WorkerStage.heldEntry]) (by simp)
    cases ok with
    | false => exact h₁.frame rfl rfl rfl rfl rfl rfl (fun ha => ha)
    | true =>
      exact (h₁.ack (fun _ => hid)).frame rfl rfl rfl rfl rfl rfl (fun ha => ha)
  | finish hg => exact hmove (by simp [WorkerStage.heldEntry]) (by simp)

theorem of_deactivating (h : Replay f) (hs : f.Deactivating f') :
    Replay f' := by
  cases hs with
  | finish hd =>
    exact h.frame rfl rfl rfl rfl rfl rfl (fun ha => absurd ha (by simp))
  | _ => exact h.frame rfl rfl rfl rfl rfl rfl id

theorem of_closing (h : Replay f) (hl : Lifecycle f.toLife)
    (hs : f.Closing f') : Replay f' := by
  cases hs with
  | none => exact h
  | close hd ha hg =>
    exact h.keep (h.held.closeMailbox.frame rfl rfl) rfl rfl rfl rfl rfl id
  | unattended _ hd ha hg => exact absurd hg (hl.present ha (by simp [hd])).1

/-- A `tell()` goes on once the backlog was placed and its own entry was
not, and acks an entry it dropped only if that is not still to be read. -/
theorem of_telling {t : ℕ} (h : Replay f)
    (hplace : ∀ task id, f.tells t = some task → task.pc = .appended id →
      (f.mailbox.enqueue (.tell task.type task.payload id)).result = .accepted →
      id ∉ f.told ∧ f.replayable ⊆ f.told)
    (hdrop : ∀ task id, f.tells t = some task → task.pc = .dropAcking id →
      f'.acked = id :: f.acked → id ∈ f.replayable → id ∈ f.told)
    (hs : f.Telling t f') : Replay f' := by
  cases hs with
  | append ht => exact (h.append _).frame rfl rfl rfl rfl rfl rfl id
  | @accept type payload id ht hr =>
    refine (h.enqueue (.tell type payload id) (fun _ id' hid => ?_)).frame
      rfl rfl rfl rfl rfl rfl (fun ha => ha)
    obtain rfl := Option.some.inj hid
    exact hplace _ _ ht rfl hr
  | dropAcked ht =>
    exact (h.ack (hdrop _ _ ht rfl rfl)).frame rfl rfl rfl rfl rfl rfl id
  | _ => exact h.frame rfl rfl rfl rfl rfl rfl id

theorem of_calling {c : ℕ} (h : Replay f) (hs : f.Calling c f') :
    Replay f' := by
  cases hs with
  | move hp => exact h.frame rfl rfl rfl rfl rfl rfl id
  | accept method args hf hr =>
    exact (h.enqueue (.call method args c)
      (fun _ id hid => absurd hid (by simp [Item.inboxId?]))).frame
        rfl rfl rfl rfl rfl rfl id

end Replay

/-! ## Runs

`keepsReplay` asks that the backlog fits, and that no tell goes on and nothing
closes the mailbox while the replay runs. -/

variable {S Env Op : Type}

namespace Sys

/-- The inbox entries placed in the current mailbox, in order. -/
def placed (s : Sys S Env Op) : List ℕ :=
  s.hist.accepted.filterMap Item.inboxId?

/-- Those of them `handle` was called on, in order. -/
def handled (s : Sys S Env Op) : List ℕ :=
  s.hist.taken.filterMap Item.inboxId?

/-- Every entry that was pending when the activation began is placed. -/
def replayed (s : Sys S Env Op) : Bool :=
  s.hist.replayable.all (fun id => s.placed.contains id)

/-- The activation is at the replay of the inbox. -/
def replaying (s : Sys S Env Op) : Bool :=
  match s.host.activating with
  | some .readInbox => true
  | some (.replayInbox _) => true
  | _ => false

/-- The mailbox is open, and has room for `n` items. -/
def hasRoom (s : Sys S Env Op) (n : ℕ) : Bool :=
  !s.host.mailbox.closed
    && decide (n + s.host.mailbox.buffer.length
      ≤ s.host.mailbox.capacity + s.host.mailbox.waiters.length)

/-- **When the inbox is replayed**: it can be read, the mailbox is open and
has room for the whole backlog, none of which is in it already, and a
`tell()` that places its own entry goes on only once the backlog is placed,
and not if the replay has placed the entry. An entry dropped for capacity
before is not acked while it waits to be replayed. -/
def keepsReplay (s : Sys S Env Op) : Act Env → Bool
  | .tellResume t =>
    match s.host.tells t with
    | some ⟨type, payload, .appended id⟩ =>
      s.enqueueResult (.tell type payload id) != .accepted
        || (!s.placed.contains id && s.replayed)
    | _ => true
  | .tellLand t ok =>
    match s.host.tells t with
    | some ⟨_, _, .dropAcking id⟩ =>
      !ok || !s.hist.replayable.contains id || s.placed.contains id
    | _ => true
  | .activation _ ok =>
    match s.host.activating with
    | some .readInbox => ok || s.replayed
    | some (.replayInbox pending) =>
      pending.all (fun r => !s.placed.contains r.id)
        && (pending.isEmpty || s.hasRoom pending.length)
    | _ => true
  | _ => true

end Sys

/-- **The inbox was replayed**, of one state of a host. -/
structure InboxReplay (s : Sys S Env Op) : Prop where
  /-- No entry is placed in the mailbox twice. -/
  once : s.placed.Nodup
  /-- Every entry pending when the activation began is in the mailbox of an
  activated host, once it is through with the replay. -/
  placed : s.host.activated = true → s.replaying = false →
    s.hist.replayable ⊆ s.placed
  /-- Those entries are handled in inbox order, and before any other. -/
  sorted : s.hist.replayable.Pairwise (· < ·)
  first : s.handled <+: s.hist.replayable ∨ s.hist.replayable <+: s.handled

namespace Replay

variable {cfg : HostConfig S Env Op} {s s' : Sys S Env Op}

theorem init (cfg : HostConfig S Env Op) (store : ActorStore S) :
    Replay (Sys.init cfg store).flow := by
  refine ⟨⟨?_, ?_⟩, List.nodup_nil, List.Pairwise.nil, .inl rfl, ?_, ?_,
    fun _ _ => List.Subset.refl _⟩ <;>
    simp [Sys.init, Sys.flow, Host.init, WorkerPc.stage,
      WorkerStage.heldEntry]

theorem replayed_iff (s : Sys S Env Op) :
    s.replayed = true ↔ s.flow.replayable ⊆ s.flow.told := by
  rw [Sys.replayed, List.all_eq_true]
  exact ⟨fun h id hid => List.contains_iff_mem.mp (h id hid),
    fun h id hid => List.contains_iff_mem.mpr (h hid)⟩

/-- The stage of an activation at the replay tells where it is. -/
theorem activating_of_phase (hp : s.flow.phase = .reading) :
    s.host.activating = some .readInbox := by
  cases hpc : s.host.activating with
  | none => simp [Sys.flow, hpc] at hp
  | some pc =>
    rw [Sys.flow_phase hpc] at hp
    cases pc <;> first | rfl | exact absurd hp (by simp [ActPc.phase])

theorem replaying_of_phase {pending : List InboxRecord}
    (hp : s.flow.phase = .replaying pending) :
    s.host.activating = some (.replayInbox pending) := by
  cases hpc : s.host.activating with
  | none => simp [Sys.flow, hpc] at hp
  | some pc =>
    rw [Sys.flow_phase hpc] at hp
    cases pc with
    | replayInbox rs => rw [Phase.replaying.inj hp]
    | _ => exact absurd hp (by simp [ActPc.phase])

/-- **One step of a host keeps the replay**, under its condition. -/
theorem step {a : Act Env} (h : Replay s.flow) (hl : Lifecycle s.flow.toLife)
    (hf : Fifo s.flow) (hG : s.keepsReplay a = true)
    (hs : s.step cfg a = some s') : Replay s'.flow := by
  have hm := Sys.flow_step hs
  cases a with
  | activate => exact h.of_opening hl hm
  | tellStart t type payload =>
    obtain ⟨-, f₁, task, ho, -, he⟩ := hm
    rw [he]
    exact (h.of_opening hl ho).frame rfl rfl rfl rfl rfl rfl id
  | tellLand t ok =>
    refine h.of_telling ?_ ?_ hm
    · rintro ⟨type, payload, pc⟩ id ht rfl
      have ht' : s.host.tells t = some ⟨type, payload, .appended id⟩ := ht
      simp [Sys.step, Sys.tellLand, ht'] at hs
    · rintro ⟨type, payload, pc⟩ id ht rfl ha hid
      have ht' : s.host.tells t = some ⟨type, payload, .dropAcking id⟩ := ht
      simp only [Sys.keepsReplay, ht', Bool.or_eq_true, Bool.not_eq_true',
        List.contains_iff_mem] at hG
      rcases hG with (hok | hno) | hin
      · -- the ack has not landed
        simp only [Sys.step, Sys.tellLand, ht', hok, Bool.false_eq_true,
          if_false, Option.some.injEq] at hs
        rw [← hs] at ha
        exact absurd (show s.store.acked = id :: s.store.acked from ha)
          (List.cons_ne_self _ _).symm
      · exact absurd (List.contains_iff_mem.mpr hid) (Bool.eq_false_iff.mp hno)
      · exact hin
  | tellResume t =>
    refine h.of_telling ?_ ?_ hm
    · rintro ⟨type, payload, pc⟩ id ht rfl hr
      have ht' : s.host.tells t = some ⟨type, payload, .appended id⟩ := ht
      have hr' : s.enqueueResult (.tell type payload id) = .accepted := hr
      simp only [Sys.keepsReplay, ht', hr', bne_self_eq_false, Bool.false_or,
        Bool.and_eq_true, Bool.not_eq_true'] at hG
      refine ⟨fun hmem => ?_, (replayed_iff s).mp hG.2⟩
      exact absurd (List.contains_iff_mem.mpr hmem) (Bool.eq_false_iff.mp hG.1)
    · rintro ⟨type, payload, pc⟩ id ht rfl
      have ht' : s.host.tells t = some ⟨type, payload, .dropAcking id⟩ := ht
      simp [Sys.step, Sys.tellResume, ht'] at hs
  | callStart c method args =>
    obtain ⟨-, ⟨-, hc⟩ | ⟨f₁, task, ho, -, he⟩⟩ := hm
    · exact h.of_calling hc
    · rw [he]
      exact (h.of_opening hl ho).frame rfl rfl rfl rfl rfl rfl id
  | callResume c => exact h.of_calling hm.2
  | activation env ok =>
    refine h.of_activating hl hf (fun hp hp' => ?_) (fun pending hp => ?_) hm
    · have hpc := activating_of_phase hp
      simp only [Sys.keepsReplay, hpc, Bool.or_eq_true] at hG
      rcases hG with hok | hdone
      · -- the inbox was read, so the activation goes on
        simp only [Sys.step, Sys.actStep, hpc, hok, if_true,
          Option.some.injEq] at hs
        rw [← hs] at hp'
        exact absurd hp' (by simp [ActPc.phase])
      · exact (replayed_iff s).mp hdone
    · have hpc := replaying_of_phase hp
      simp only [Sys.keepsReplay, hpc, Bool.and_eq_true, Bool.or_eq_true,
        List.all_eq_true, Bool.not_eq_true', List.isEmpty_iff] at hG
      refine ⟨fun r hr hmem => ?_, hG.2.imp_right (fun hroom => ?_)⟩
      · exact absurd (List.contains_iff_mem.mpr hmem)
          (Bool.eq_false_iff.mp (hG.1 r hr))
      · rw [Sys.hasRoom, Bool.and_eq_true, Bool.not_eq_true',
          decide_eq_true_eq] at hroom
        exact hroom
  | worker g env ok => exact h.of_working hl hf hm
  | deactivate env => exact h.of_closing hl hm
  | deactivation env => exact h.of_deactivating hm
  | destroy env => exact h.of_closing hl hm
  | idleFire env => exact h.of_closing hl hm
  | flushResume k =>
    obtain ⟨es, he⟩ := hm
    rw [he]
    exact h.frame rfl rfl rfl rfl rfl rfl id
  | _ =>
    have he : s'.flow = s.flow := hm
    rw [he]
    exact h

end Replay

/-- **The inbox is replayed** in every state reached by a run along which
the backlog can be read and has room in the mailbox, and no `tell()`
overtakes it. -/
theorem inbox_replay (cfg : HostConfig S Env Op) (store : ActorStore S)
    {as : List (Act Env)} {s : Sys S Env Op}
    (hG : TransitionSystem.Along (Sys.step cfg)
      (fun s a => s.keepsReplay a = true) (.init cfg store) as)
    (hs : TransitionSystem.run (Sys.step cfg) (.init cfg store) as = some s) :
    InboxReplay s := by
  have h : Lifecycle s.flow.toLife ∧ Fifo s.flow ∧ Replay s.flow :=
    TransitionSystem.run_invariant (Sys.step cfg)
      (P := fun s => Lifecycle s.flow.toLife ∧ Fifo s.flow ∧ Replay s.flow)
      (fun _ _ _ h hG hs => ⟨h.1.of_moves (Sys.flow_step hs),
        h.2.1.of_moves h.1 (Sys.flow_step hs), h.2.2.step h.1 h.2.1 hG hs⟩)
      ⟨.init cfg store, .init cfg store, .init cfg store⟩ hG hs
  obtain ⟨hl, hf, hr⟩ := h
  refine ⟨hr.once, fun ha hn => ?_, hr.sorted, ?_⟩
  · refine hr.placed ha ?_
    cases hpc : s.host.activating with
    | none => exact .inr (by simp [Sys.flow, hpc])
    | some pc =>
      have hp := Sys.flow_phase hpc
      cases hph : pc.phase with
      | finishing => exact .inl (hp.trans hph)
      | idle => exact .inr (hp.trans hph)
      | loading =>
        have hearly := (hl.early (.inl (hp.trans hph))).1
        exact absurd (show s.host.activated = false from hearly) (by simp [ha])
      | opening =>
        have hearly := (hl.early (.inr (hp.trans hph))).1
        exact absurd (show s.host.activated = false from hearly) (by simp [ha])
      | reading =>
        have := Replay.activating_of_phase (hp.trans hph)
        simp [Sys.replaying, this] at hn
      | replaying pending =>
        have := Replay.replaying_of_phase (hp.trans hph)
        simp [Sys.replaying, this] at hn
  · have htaken : s.handled <+: s.placed :=
      List.IsPrefix.filterMap Item.inboxId? hf.taken_prefix
    rcases hr.first with hn | hpre
    · refine .inl ?_
      have : s.handled = [] := by
        have hn' : s.placed = [] := hn
        rw [hn'] at htaken
        exact List.prefix_nil.mp htaken
      rw [this]
      exact List.nil_prefix
    · exact List.prefix_or_prefix_of_prefix htaken hpre

/-- Storage with `n` pending increments. -/
def Counter.backlog (n : ℕ) : ActorStore ℕ :=
  { ActorStore.empty with inbox := List.replicate n ⟨"inc", .null⟩ }

/-- A backlog of two is replayed, one entry to the worker and one to the
buffer, and handled; then a tell is. -/
def backlogThenTell : List (Act Bool) :=
  [.activate] ++ Counter.activating 8 ++ Counter.working 1 6
    ++ Counter.telling 0 "inc" ++ Counter.working 1 8

/-- The theorem applies to that run, which handles the entries 0, 1 and
2. -/
theorem inbox_replay_backlogThenTell :
    ∃ s, TransitionSystem.run (Sys.step Counter.cfg)
        (.init Counter.cfg (Counter.backlog 2)) backlogThenTell = some s
      ∧ s.handled = [0, 1, 2] ∧ InboxReplay s := by
  have hrun : (TransitionSystem.run (Sys.step Counter.cfg)
      (.init Counter.cfg (Counter.backlog 2)) backlogThenTell).any
        (fun s => s.handled == [0, 1, 2]) = true := by decide
  obtain ⟨s, hs, hr⟩ := (Option.any_eq_true _ _).mp hrun
  exact ⟨s, hs, by simpa using hr,
    inbox_replay Counter.cfg (Counter.backlog 2) (by decide) hs⟩

/-- An activation with nothing else going on. -/
def quietActivation : List (Act Bool) := [.activate] ++ Counter.activating 8

/-- **A backlog larger than the mailbox is cut short**: the replay is not
complete in every run, not even if nothing interferes. -/
theorem not_inbox_replay :
    ¬∀ (store : ActorStore ℕ) (as : List (Act Bool)) (s : Sys ℕ Bool ℕ),
      TransitionSystem.run (Sys.step Counter.cfg) (.init Counter.cfg store) as
        = some s → InboxReplay s := by
  intro h
  have hrun : (TransitionSystem.run (Sys.step Counter.cfg)
      (.init Counter.cfg (Counter.backlog 3)) quietActivation).any
        (fun s => s.host.activated && !s.replaying && !s.replayed)
          = true := by decide
  obtain ⟨s, hs, hr⟩ := (Option.any_eq_true _ _).mp hrun
  simp only [Bool.and_eq_true, Bool.not_eq_true'] at hr
  obtain ⟨⟨ha, hn⟩, hmiss⟩ := hr
  have hall := (Replay.replayed_iff s).mpr
    ((h (Counter.backlog 3) quietActivation s hs).placed ha hn)
  exact absurd hall (Bool.eq_false_iff.mp hmiss)
