import Mathlib.Data.List.Sort
import Actjs.InboxReplay

/-!
# Applying tells in inbox order

A tell is applied once the worker has acked its entry. `HostFlow.applied`
are the entries that are applied, in inbox order, and `InOrder` says that
they are applied in that order too: those that wait in the mailbox come one
after the other, and nothing that is still to come is before any of them.

An entry that was dropped for capacity is acked without being applied. Those
dropped by the hosts that came before, all of which are over, are in `old`.
-/

open Function (update)

/-- The entry that is in the hands of a worker and not acked yet. -/
def WorkerStage.toAck : WorkerStage → Option ℕ
  | received item => item.inboxId?
  | turn item => item.inboxId?
  | acking item _ => item.inboxId?
  | unhandled id => some id
  | _ => none

/-- A worker that has returned, or not begun, has nothing to ack. -/
theorem WorkerStage.toAck_of_dead {w : WorkerStage} (h : w.alive = false) :
    w.toAck = none := by
  cases w <;> first | rfl | exact absurd h (by simp [WorkerStage.alive])

namespace HostFlow

variable {f f' : HostFlow} {old : List ℕ} {g : ℕ}

/-! ## What waits to be acked

The entries of the tells that a worker has in hand and that are in the buffer,
in that order. -/

/-- The entry in the hands of the worker. -/
def inHand (f : HostFlow) : Option ℕ :=
  f.workerPromise.bind (fun g => (f.workers g).toAck)

/-- **The entries that wait to be acked**: the one in hand, then those in the
mailbox. -/
def queued (f : HostFlow) : List ℕ :=
  f.inHand.toList ++ f.mailbox.buffer.filterMap Item.inboxId?

theorem queued_frame (hp : f'.workerPromise = f.workerPromise)
    (hw : f'.workers = f.workers) (hb : f'.mailbox.buffer = f.mailbox.buffer) :
    f'.queued = f.queued := by
  rw [queued, queued, inHand, inHand, hp, hw, hb]

theorem inHand_of_alive (hl : Lifecycle f.toLife) (hg : (f.workers g).alive = true) :
    f.inHand = (f.workers g).toAck := by
  rw [inHand, (hl.alive g hg).2]
  rfl

theorem inHand_of_dead (h : ∀ g, (f.workers g).alive = false) : f.inHand = none := by
  unfold inHand
  cases f.workerPromise with
  | none => rfl
  | some g => exact WorkerStage.toAck_of_dead (h g)

/-- The worker moves. -/
theorem queued_move {w : WorkerStage} (hl : Lifecycle f.toLife)
    (hg : (f.workers g).alive = true) (hp : f'.workerPromise = f.workerPromise)
    (hw : f'.workers = update f.workers g w)
    (hb : f'.mailbox.buffer = f.mailbox.buffer) :
    f'.queued = w.toAck.toList ++ f.mailbox.buffer.filterMap Item.inboxId? := by
  rw [queued, inHand, hp, (hl.alive g hg).2, hw, hb]
  show (update f.workers g w g).toAck.toList ++ _ = _
  rw [Function.update_self]

/-- It moves without letting go of what it has in hand. -/
theorem queued_move_self {w : WorkerStage} (hl : Lifecycle f.toLife)
    (hg : (f.workers g).alive = true) (hk : w.toAck = (f.workers g).toAck)
    (hp : f'.workerPromise = f.workerPromise) (hw : f'.workers = update f.workers g w)
    (hb : f'.mailbox.buffer = f.mailbox.buffer) : f'.queued = f.queued := by
  rw [queued_move hl hg hp hw hb, hk, queued, inHand_of_alive hl hg]

/-- It moves and lets go of what it has in hand. -/
theorem queued_cons {w : WorkerStage} {k : ℕ} (hl : Lifecycle f.toLife)
    (hg : (f.workers g).alive = true) (hk : (f.workers g).toAck = some k)
    (hn : w.toAck = none) (hp : f'.workerPromise = f.workerPromise)
    (hw : f'.workers = update f.workers g w)
    (hb : f'.mailbox.buffer = f.mailbox.buffer) : f.queued = k :: f'.queued := by
  rw [queued_move hl hg hp hw hb, hn, queued, inHand_of_alive hl hg, hk]
  rfl

/-- A worker with nothing in hand dequeues. -/
theorem queued_dequeue (hp : f.workerPromise = some g)
    (hg : (f.workers g).toAck = none) : (f.dequeue g).queued = f.queued := by
  have hf : f.queued = f.mailbox.buffer.filterMap Item.inboxId? := by
    rw [queued, inHand, hp]
    show (f.workers g).toAck.toList ++ _ = _
    rw [hg]
    rfl
  have hand : (f.dequeue g).inHand = ((f.dequeue g).workers g).toAck := by
    rw [inHand, show (f.dequeue g).workerPromise = some g from hp]
    rfl
  rw [hf, queued, hand]
  unfold dequeue
  rcases f.mailbox.dequeue_cases g with ⟨x, m, he, hb, -⟩ | ⟨he, hb, -⟩
    | ⟨m, he, hb, -, hb', -⟩ <;> rw [he] <;> dsimp only <;>
    rw [setWorker_workers, if_pos rfl]
  · rw [hb]
    show x.inboxId?.toList ++ _ = _
    rw [List.filterMap_cons]
    cases x.inboxId? <;> rfl
  · rfl
  · rw [hb, hb']
    rfl

/-- So does one that begins. -/
theorem queued_begin (hdead : ∀ g, (f.workers g).alive = false)
    (hp : f'.workerPromise = some g) (hw : f'.workers = f.workers)
    (hb : f'.mailbox.buffer = f.mailbox.buffer) : (f'.dequeue g).queued = f.queued := by
  have hg : (f'.workers g).toAck = none := by
    rw [hw]
    exact WorkerStage.toAck_of_dead (hdead g)
  rw [queued_dequeue hp hg, queued, queued, hb, inHand_of_dead hdead, inHand, hp]
  show (f'.workers g).toAck.toList ++ _ = _
  rw [hg]

/-- An item comes last, if it is accepted. -/
theorem queued_enqueue (hl : Lifecycle f.toLife) (item : Item) :
    (f.enqueue item).queued
      = if (f.mailbox.enqueue item).result = .accepted
          then f.queued ++ item.inboxId?.toList else f.queued := by
  have hwake := f.mailbox.wakeful
  unfold HostFlow.enqueue
  rcases f.mailbox.enqueue_cases item with ⟨he, -⟩ | ⟨he, -⟩
    | ⟨w, m, he, -, hws, hb, -⟩ | ⟨m, he, -, -, -, -, hb, -⟩ <;> rw [he]
  · rfl
  · rfl
  · -- the worker that waits is handed the item, and the buffer is empty
    have hwait := hl.waits w (by rw [hws]; exact List.mem_cons_self)
    have hempty := hwake (by rw [hws]; simp)
    have hlive : (f.workers w).alive = true := by rw [hwait]; rfl
    have hnil : f.queued = [] := by
      rw [queued, inHand_of_alive hl hlive, hwait, hempty]
      rfl
    have hq : HostFlow.queued
        { f with
          mailbox := m
          workers := update f.workers w (.received item)
          accepted := f.accepted ++ [item] }
        = (WorkerStage.received item).toAck.toList
          ++ f.mailbox.buffer.filterMap Item.inboxId? :=
      queued_move hl hlive rfl rfl hb
    rw [if_pos rfl, hnil]
    refine Eq.trans hq ?_
    rw [hempty]
    exact List.append_nil _
  · rw [if_pos rfl, queued, queued, hb, filterMap_inboxId?_append, List.append_assoc]
    rfl

/-- Closing the mailbox leaves what is in it. -/
theorem queued_closeMailbox (hl : Lifecycle f.toLife) :
    f.closeMailbox.queued = f.queued := by
  have hand : f.closeMailbox.inHand = f.inHand := by
    unfold inHand
    show f.workerPromise.bind _ = _
    cases f.workerPromise with
    | none => rfl
    | some g =>
      show (if g ∈ f.mailbox.waiters then WorkerStage.exiting
        else f.workers g).toAck = (f.workers g).toAck
      split
      · next hg => rw [hl.waits g hg]; rfl
      · rfl
  rw [queued, hand]
  rfl

/-! ## What is applied

Acked, and not because it was dropped. Inbox order is the order of the
entries. -/

/-- The entry was dropped for capacity. -/
def Gone (f : HostFlow) (old : List ℕ) (id : ℕ) : Prop := id ∈ f.dropped ∨ id ∈ old

/-- The entry is acked, or will be without being applied. -/
def Past (f : HostFlow) (old : List ℕ) (id : ℕ) : Prop := id ∈ f.acked ∨ f.Gone old id

instance (f : HostFlow) (old : List ℕ) (id : ℕ) : Decidable (f.Gone old id) :=
  inferInstanceAs (Decidable (_ ∨ _))

instance (f : HostFlow) (old : List ℕ) (id : ℕ) : Decidable (f.Past old id) :=
  inferInstanceAs (Decidable (_ ∨ _))

/-- **The entries that are applied**, in inbox order. -/
def applied (f : HostFlow) (old : List ℕ) : List ℕ :=
  (List.range f.inbox.length).filter
    (fun id => f.acked.contains id && !f.dropped.contains id && !old.contains id)

theorem mem_applied {id : ℕ} :
    id ∈ f.applied old ↔ id < f.inbox.length ∧ id ∈ f.acked ∧ ¬f.Gone old id := by
  unfold applied Gone
  simp [and_assoc]

theorem sorted_applied (f : HostFlow) (old : List ℕ) :
    (f.applied old).Pairwise (· < ·) :=
  List.pairwise_lt_range.filter _

/-- **Which entries are applied is known by their members.** -/
theorem applied_eq {ids : List ℕ} (hs : ids.Pairwise (· < ·))
    (h : ∀ id, id ∈ ids ↔ id < f.inbox.length ∧ id ∈ f.acked ∧ ¬f.Gone old id) :
    f.applied old = ids :=
  (sorted_applied f old).eq_of_mem_iff hs (fun id => mem_applied.trans (h id).symm)

end HostFlow

/-! ## What is in the mailbox -/

/-- The item is a tell, with what the inbox has of it. -/
def HostFlow.Genuine (f : HostFlow) (item : Item) : Prop :=
  ∃ id e, f.inbox[id]? = some e ∧ item = .tell e.type e.payload id

/-- **Mailbox and inbox have the same of a tell**, and nothing but tells is in
the mailbox. -/
structure Entries (f : HostFlow) : Prop where
  buffered : ∀ item ∈ f.mailbox.buffer, f.Genuine item
  held : ∀ g item, (f.workers g).holding = some item → f.Genuine item
  acking : ∀ g item id, f.workers g = .acking item id → item.inboxId? = some id
  appended : ∀ t task id, f.tells t = some task → task.pc = .appended id →
    f.inbox[id]? = some ⟨task.type, task.payload⟩
  dropping : ∀ t task id, f.tells t = some task → task.pc = .dropAcking id →
    id ∈ f.dropped

namespace Entries

variable {f f' : HostFlow} {g : ℕ}

theorem frame (h : Entries f) (hb : f'.mailbox.buffer = f.mailbox.buffer)
    (hw : f'.workers = f.workers) (hi : f'.inbox = f.inbox)
    (ht : f'.tells = f.tells) (hd : f'.dropped = f.dropped) : Entries f' := by
  constructor
  · rw [hb]; unfold HostFlow.Genuine; rw [hi]; exact h.buffered
  · rw [hw]; unfold HostFlow.Genuine; rw [hi]; exact h.held
  · rw [hw]; exact h.acking
  · rw [ht, hi]; exact h.appended
  · rw [ht, hd]; exact h.dropping

/-- The worker moves, to a stage with nothing in hand or with what it had. -/
theorem move (h : Entries f) {w : WorkerStage}
    (hb : f'.mailbox.buffer = f.mailbox.buffer) (hw : f'.workers = update f.workers g w)
    (hi : f'.inbox = f.inbox) (ht : f'.tells = f.tells) (hd : f'.dropped = f.dropped)
    (hk : ∀ item, w.holding = some item → f.Genuine item)
    (hack : ∀ item id, w = .acking item id → item.inboxId? = some id) : Entries f' := by
  refine ⟨?_, fun g' item hg' => ?_, fun g' item id hg' => ?_, ?_, ?_⟩
  · rw [hb]; unfold HostFlow.Genuine; rw [hi]; exact h.buffered
  · unfold HostFlow.Genuine
    rw [hi]
    rw [hw, Function.update_apply] at hg'
    split at hg'
    · exact hk item hg'
    · exact h.held g' item hg'
  · rw [hw, Function.update_apply] at hg'
    split at hg'
    · exact hack item id hg'
    · exact h.acking g' item id hg'
  · rw [ht, hi]; exact h.appended
  · rw [ht, hd]; exact h.dropping

/-- A `tell()` moves. -/
theorem setTell (h : Entries f) {t : ℕ} {task : TellTask}
    (hp : ∀ id, task.pc = .appended id → f.inbox[id]? = some ⟨task.type, task.payload⟩)
    (hd : ∀ id, task.pc = .dropAcking id → id ∈ f.dropped) :
    Entries { f with tells := update f.tells t (some task) } := by
  refine ⟨h.buffered, h.held, h.acking, fun t' task' id ht hpc => ?_,
    fun t' task' id ht hpc => ?_⟩ <;>
    rw [show ({ f with tells := update f.tells t (some task) } : HostFlow).tells t'
      = update f.tells t (some task) t' from rfl, Function.update_apply] at ht <;>
    split at ht
  · obtain rfl := Option.some.inj ht
    exact hp id hpc
  · exact h.appended t' task' id ht hpc
  · obtain rfl := Option.some.inj ht
    exact hd id hpc
  · exact h.dropping t' task' id ht hpc

/-- A `tell()` that has appended nothing moves. -/
theorem setTell_none (h : Entries f) {t : ℕ} {task : TellTask}
    (hp : task.pc.entry? = none) :
    Entries { f with tells := update f.tells t (some task) } :=
  h.setTell (fun id he => absurd hp (by simp [he, TellPc.entry?]))
    (fun id he => absurd hp (by simp [he, TellPc.entry?]))

theorem enqueue (h : Entries f) {item : Item} (hitem : f.Genuine item) :
    Entries (f.enqueue item) := by
  refine ⟨fun x hx => ?_, fun g x hx => ?_, fun g x id hx => ?_, h.appended, h.dropping⟩
  · have hx' : x ∈ f.mailbox.buffer ++ [item] := by
      unfold HostFlow.enqueue at hx
      rcases f.mailbox.enqueue_cases item with ⟨he, -⟩ | ⟨he, -⟩
        | ⟨w, m, he, -, -, hb, -⟩ | ⟨m, he, -, -, -, -, hb, -⟩ <;> rw [he] at hx
      · exact List.mem_append_left _ hx
      · exact List.mem_append_left _ hx
      · exact List.mem_append_left _ (hb ▸ hx)
      · exact hb ▸ hx
    rcases List.mem_append.mp hx' with hx' | hx'
    · exact h.buffered x hx'
    · obtain rfl := List.mem_singleton.mp hx'
      exact hitem
  · rcases f.enqueue_workers item g with he | he
    · exact h.held g x (he ▸ hx)
    · rw [he] at hx
      obtain rfl := Option.some.inj hx
      exact hitem
  · rcases f.enqueue_workers item g with he | he
    · exact h.acking g x id (he.symm.trans hx)
    · exact absurd (he.symm.trans hx) (by simp)

theorem enqueueAll (h : Entries f) {rs : List InboxRecord}
    (hrs : ∀ r ∈ rs, f.inbox[r.id]? = some r.entry) : Entries (f.enqueueAll rs) := by
  induction rs generalizing f with
  | nil => exact h
  | cons r rs ih =>
    rw [HostFlow.enqueueAll]
    split
    · exact h
    · exact ih (h.enqueue ⟨r.id, r.entry, hrs r List.mem_cons_self, rfl⟩)
        (fun r' hr' => hrs r' (List.mem_cons_of_mem _ hr'))

/-- What a worker dequeues was in the mailbox. -/
theorem dequeue (h : Entries f) : Entries (f.dequeue g) := by
  unfold HostFlow.dequeue
  rcases f.mailbox.dequeue_cases g with ⟨x, m, he, hb, -⟩ | ⟨he, -⟩
    | ⟨m, he, hb, -, hb', -⟩ <;> rw [he]
  · have hm : Entries { f with mailbox := m } :=
      ⟨fun y hy => h.buffered y (hb ▸ List.mem_cons_of_mem _ hy), h.held, h.acking,
        h.appended, h.dropping⟩
    refine hm.move rfl rfl rfl rfl rfl (fun item hi => ?_) (by simp)
    obtain rfl := Option.some.inj hi
    exact h.buffered x (hb ▸ List.mem_cons_self)
  · exact h.move rfl rfl rfl rfl rfl (by simp [WorkerStage.holding]) (by simp)
  · have hm : Entries { f with mailbox := m } :=
      h.frame (hb'.trans hb.symm) rfl rfl rfl rfl
    exact hm.move rfl rfl rfl rfl rfl (by simp [WorkerStage.holding]) (by simp)

theorem closeMailbox (h : Entries f) : Entries f.closeMailbox := by
  refine ⟨h.buffered, fun g item hg => ?_, fun g item id hg => ?_, h.appended,
    h.dropping⟩
  · rcases f.closeMailbox_workers g with he | he <;> rw [he] at hg
    · exact h.held g item hg
    · exact absurd hg (by simp [WorkerStage.holding])
  · rcases f.closeMailbox_workers g with he | he <;> rw [he] at hg
    · exact h.acking g item id hg
    · exact absurd hg (by simp)

/-! ### The steps -/

theorem of_opening (h : Entries f) (hs : f.Opening f') : Entries f' := by
  cases hs with
  | none => exact h
  | refuse ha hp => exact h.frame rfl rfl rfl rfl rfl
  | begin capacity hc ha hp =>
    exact ⟨fun item hi => absurd hi List.not_mem_nil, h.held, h.acking, h.appended,
      h.dropping⟩

theorem of_activating (h : Entries f)
    (hread : ∀ pending, f.phase = .replaying pending →
      ∀ r ∈ pending, f.inbox[r.id]? = some r.entry)
    (hs : f.Activating f') : Entries f' := by
  cases hs with
  | @activated i hi =>
    have h₁ : Entries { f with
        inst := i
        activated := true
        workerPromise := some f.activation } := h.frame rfl rfl rfl rfl rfl
    exact h₁.dequeue.frame rfl rfl rfl rfl rfl
  | replayed hp => exact (h.enqueueAll (hread _ hp)).frame rfl rfl rfl rfl rfl
  | _ => exact h.frame rfl rfl rfl rfl rfl

theorem of_working (h : Entries f) (hs : f.Working g f') : Entries f' := by
  have hkeep : ∀ {w : WorkerStage}, w.holding = (f.workers g).holding →
      ∀ item, w.holding = some item → f.Genuine item := fun hw item hi =>
    h.held g item (hw ▸ hi)
  cases hs with
  | dequeue hg => exact h.dequeue
  | exit hg => exact h.move rfl rfl rfl rfl rfl (by simp [WorkerStage.holding]) (by simp)
  | refuse e hg =>
    exact h.move rfl rfl rfl rfl rfl (by simp [WorkerStage.holding]) (by simp)
  | ignore hg => exact h.move rfl rfl rfl rfl rfl (by simp [WorkerStage.holding]) (by simp)
  | start hg => exact h.move rfl rfl rfl rfl rfl (hkeep (by rw [hg]; rfl)) (by simp)
  | resolve r hg => exact h.move rfl rfl rfl rfl rfl (hkeep (by rw [hg]; rfl)) (by simp)
  | commit hg =>
    refine h.move rfl rfl rfl rfl rfl (hkeep (by rw [hg]; rfl)) (fun item id hi => ?_)
    obtain ⟨rfl, rfl⟩ := WorkerStage.acking.inj hi
    rfl
  | ack hg => exact h.move rfl rfl rfl rfl rfl (hkeep (by rw [hg]; rfl)) (by simp)
  | turn hg => rw [HostFlow.setWorker_self hg]; exact h
  | flush hg => rw [HostFlow.setWorker_self hg]; exact h
  | fail e hg => exact h.move rfl rfl rfl rfl rfl (by simp [WorkerStage.holding]) (by simp)
  | unhandled ok hg =>
    exact h.move rfl rfl rfl rfl rfl (by simp [WorkerStage.holding]) (by simp)
  | finish hg => exact h.move rfl rfl rfl rfl rfl (by simp [WorkerStage.holding]) (by simp)

theorem of_deactivating (h : Entries f) (hs : f.Deactivating f') : Entries f' := by
  cases hs <;> exact h.frame rfl rfl rfl rfl rfl

theorem of_closing (h : Entries f) (hl : Lifecycle f.toLife) (hs : f.Closing f') :
    Entries f' := by
  cases hs with
  | none => exact h
  | close hd ha hg => exact h.closeMailbox.frame rfl rfl rfl rfl rfl
  | unattended _ hd ha hg => exact absurd hg (hl.present ha (by simp [hd])).1

theorem of_telling {t : ℕ} (h : Entries f) (hs : f.Telling t f') : Entries f' := by
  cases hs with
  | move ht hp hp' => exact h.setTell_none hp'
  | @append type payload ht =>
    have hgrow : ∀ {id e}, f.inbox[id]? = some e →
        (f.inbox ++ [(⟨type, payload⟩ : InboxEntry)])[id]? = some e := fun he => by
      rw [List.getElem?_append_left (List.getElem?_eq_some_iff.mp he).1]
      exact he
    have h₁ : Entries { f with inbox := f.inbox ++ [⟨type, payload⟩] } :=
      ⟨fun item hi => (h.buffered item hi).imp fun id => Exists.imp fun e he => ⟨hgrow he.1, he.2⟩,
        fun g item hi => (h.held g item hi).imp fun id => Exists.imp fun e he =>
          ⟨hgrow he.1, he.2⟩,
        h.acking, fun t' task id ht' hp => hgrow (h.appended t' task id ht' hp), h.dropping⟩
    refine (h₁.setTell (fun id he => ?_) (by simp)).frame rfl rfl rfl rfl rfl
    obtain rfl := TellPc.appended.inj he
    exact List.getElem?_concat_length
  | closed ht hr => exact (h.setTell (by simp) (by simp)).frame rfl rfl rfl rfl rfl
  | @drop type payload id ht hr =>
    have h₁ : Entries { f with dropped := id :: f.dropped } :=
      ⟨h.buffered, h.held, h.acking, h.appended,
        fun t' task id' ht' hp => List.mem_cons_of_mem _ (h.dropping t' task id' ht' hp)⟩
    refine (h₁.setTell (by simp) (fun id' he => ?_)).frame rfl rfl rfl rfl rfl
    obtain rfl := TellPc.dropAcking.inj he
    exact List.mem_cons_self
  | @accept type payload id ht hr =>
    have h₁ := h.enqueue ⟨id, _, h.appended t _ id ht rfl, rfl⟩
    exact (h₁.setTell (by simp) (by simp)).frame rfl rfl rfl rfl rfl
  | dropAcked ht => exact (h.setTell (by simp) (by simp)).frame rfl rfl rfl rfl rfl
  | dropFailed ht => exact (h.setTell (by simp) (by simp)).frame rfl rfl rfl rfl rfl

end Entries

/-! ## The order -/

/-- **Tells are applied in inbox order**: those that wait come one after the
other, and whatever is before one that waits or is applied is past, or waits
too. -/
structure InOrder (old : List ℕ) (f : HostFlow) : Prop where
  sorted : f.queued.Pairwise (· < ·)
  waiting : ∀ k ∈ f.queued, k < f.inbox.length ∧ ¬f.Past old k
  /-- Nothing that is still to be applied is before one that waits. -/
  before : ∀ k ∈ f.queued, ∀ i < k, f.Past old i ∨ i ∈ f.queued
  /-- Nor before one that was applied. -/
  settled : ∀ k ∈ f.acked, k < f.inbox.length
    ∧ (¬f.Gone old k → ∀ i < k, f.Past old i)
  gone : ∀ k, f.Gone old k → k < f.inbox.length

namespace InOrder

variable {f f' : HostFlow} {old : List ℕ} {k : ℕ}

theorem frame (h : InOrder old f) (hq : f'.queued = f.queued)
    (hi : f'.inbox = f.inbox) (ha : f'.acked = f.acked)
    (hd : f'.dropped = f.dropped) : InOrder old f' := by
  have hgone : f'.Gone old = f.Gone old := by unfold HostFlow.Gone; rw [hd]
  have hpast : f'.Past old = f.Past old := by unfold HostFlow.Past; rw [ha, hgone]
  constructor
  · rw [hq]; exact h.sorted
  · rw [hq, hi, hpast]; exact h.waiting
  · rw [hq, hpast]; exact h.before
  · rw [ha, hi, hgone, hpast]; exact h.settled
  · rw [hgone, hi]; exact h.gone

/-- Nothing waits any more, or yet. -/
theorem of_nil (h : InOrder old f) (hq : f'.queued = []) (hi : f'.inbox = f.inbox)
    (ha : f'.acked = f.acked) (hd : f'.dropped = f.dropped) : InOrder old f' := by
  have hgone : f'.Gone old = f.Gone old := by unfold HostFlow.Gone; rw [hd]
  have hpast : f'.Past old = f.Past old := by unfold HostFlow.Past; rw [ha, hgone]
  constructor
  · rw [hq]; exact .nil
  · rw [hq]; exact fun k hk => absurd hk List.not_mem_nil
  · rw [hq]; exact fun k hk => absurd hk List.not_mem_nil
  · rw [ha, hi, hgone, hpast]; exact h.settled
  · rw [hgone, hi]; exact h.gone

/-- An entry comes to wait. What is before it is past, or waits. -/
theorem snoc (h : InOrder old f) (hk : k < f.inbox.length) (hp : ¬f.Past old k)
    (hn : k ∉ f.queued) (hb : ∀ i < k, f.Past old i ∨ i ∈ f.queued)
    (hq : f'.queued = f.queued ++ [k]) (hi : f'.inbox = f.inbox)
    (ha : f'.acked = f.acked) (hd : f'.dropped = f.dropped) : InOrder old f' := by
  have hgone : f'.Gone old = f.Gone old := by unfold HostFlow.Gone; rw [hd]
  have hpast : f'.Past old = f.Past old := by unfold HostFlow.Past; rw [ha, hgone]
  have hlt : ∀ j ∈ f.queued, j < k := by
    intro j hj
    by_contra hle
    have hne : j ≠ k := fun he => hn (he ▸ hj)
    exact (h.before j hj k (by omega)).elim hp hn
  constructor
  · rw [hq]
    exact List.pairwise_append.mpr ⟨h.sorted, List.pairwise_singleton _ _,
      fun j hj l hl => List.mem_singleton.mp hl ▸ hlt j hj⟩
  · intro j hj
    rw [hi, hpast]
    rcases List.mem_append.mp (hq ▸ hj) with hj | hj
    · exact h.waiting j hj
    · obtain rfl := List.mem_singleton.mp hj
      exact ⟨hk, hp⟩
  · intro j hj i hij
    rw [hpast, hq]
    refine Or.imp_right (List.mem_append_left _) ?_
    rcases List.mem_append.mp (hq ▸ hj) with hj | hj
    · exact h.before j hj i hij
    · obtain rfl := List.mem_singleton.mp hj
      exact hb i hij
  · rw [ha, hi, hgone, hpast]; exact h.settled
  · rw [hgone, hi]; exact h.gone

/-- **The first that waits is acked**: it is the next to be applied. -/
theorem ack (h : InOrder old f) (hq : f.queued = k :: f'.queued)
    (hi : f'.inbox = f.inbox) (ha : f'.acked = k :: f.acked)
    (hd : f'.dropped = f.dropped) : InOrder old f' := by
  have hgone : f'.Gone old = f.Gone old := by unfold HostFlow.Gone; rw [hd]
  have hpast : ∀ i, f'.Past old i ↔ i = k ∨ f.Past old i := fun i => by
    unfold HostFlow.Past
    rw [ha, hgone, List.mem_cons, or_assoc]
  have hsorted := h.sorted
  rw [hq, List.pairwise_cons] at hsorted
  have hsub : ∀ j ∈ f'.queued, j ∈ f.queued := fun j hj => hq ▸ List.mem_cons_of_mem _ hj
  constructor
  · exact hsorted.2
  · intro j hj
    obtain ⟨hlt, hp⟩ := h.waiting j (hsub j hj)
    rw [hi, hpast]
    exact ⟨hlt, not_or.mpr ⟨(hsorted.1 j hj).ne', hp⟩⟩
  · intro j hj i hij
    rw [hpast]
    rcases h.before j (hsub j hj) i hij with hp | hm
    · exact .inl (.inr hp)
    · rcases List.mem_cons.mp (hq ▸ hm) with rfl | hm
      · exact .inl (.inl rfl)
      · exact .inr hm
  · intro j hj
    rw [hi, hgone]
    rcases List.mem_cons.mp (ha ▸ hj) with rfl | hj
    · refine ⟨(h.waiting j (hq ▸ List.mem_cons_self)).1, fun _ i hij => ?_⟩
      rw [hpast]
      refine .inr ((h.before j (hq ▸ List.mem_cons_self) i hij).resolve_right (fun hm => ?_))
      rcases List.mem_cons.mp (hq ▸ hm) with rfl | hm
      · exact absurd hij (lt_irrefl _)
      · exact absurd (hsorted.1 i hm) (by omega)
    · exact ⟨(h.settled j hj).1, fun hn i hij =>
        (hpast i).mpr (.inr ((h.settled j hj).2 hn i hij))⟩
  · rw [hgone, hi]; exact h.gone

/-- An entry is appended to the inbox. -/
theorem append (h : InOrder old f) {e : InboxEntry} (hq : f'.queued = f.queued)
    (hi : f'.inbox = f.inbox ++ [e]) (ha : f'.acked = f.acked)
    (hd : f'.dropped = f.dropped) : InOrder old f' := by
  have hgone : f'.Gone old = f.Gone old := by unfold HostFlow.Gone; rw [hd]
  have hpast : f'.Past old = f.Past old := by unfold HostFlow.Past; rw [ha, hgone]
  have hlt : ∀ {j}, j < f.inbox.length → j < f'.inbox.length := fun hj => by
    rw [hi, List.length_append]
    exact Nat.lt_add_right _ hj
  constructor
  · rw [hq]; exact h.sorted
  · rw [hq, hpast]; exact fun j hj => ⟨hlt (h.waiting j hj).1, (h.waiting j hj).2⟩
  · rw [hq, hpast]; exact h.before
  · rw [ha, hgone, hpast]; exact fun j hj => ⟨hlt (h.settled j hj).1, (h.settled j hj).2⟩
  · rw [hgone]; exact fun j hj => hlt (h.gone j hj)

/-- An entry that does not wait is dropped. -/
theorem drop (h : InOrder old f) (hk : k < f.inbox.length) (hn : k ∉ f.queued)
    (hq : f'.queued = f.queued) (hi : f'.inbox = f.inbox)
    (ha : f'.acked = f.acked) (hd : f'.dropped = k :: f.dropped) : InOrder old f' := by
  have hgone : ∀ i, f'.Gone old i ↔ i = k ∨ f.Gone old i := fun i => by
    unfold HostFlow.Gone
    rw [hd, List.mem_cons, or_assoc]
  have hpast : ∀ i, f'.Past old i ↔ i = k ∨ f.Past old i := fun i => by
    unfold HostFlow.Past
    rw [ha, hgone]
    tauto
  constructor
  · rw [hq]; exact h.sorted
  · intro j hj
    rw [hq] at hj
    rw [hi, hpast]
    exact ⟨(h.waiting j hj).1, not_or.mpr ⟨fun he => hn (he ▸ hj), (h.waiting j hj).2⟩⟩
  · intro j hj i hij
    rw [hq] at hj ⊢
    rw [hpast]
    exact (h.before j hj i hij).imp_left .inr
  · intro j hj
    rw [ha] at hj
    rw [hi, hgone]
    exact ⟨(h.settled j hj).1, fun hn i hij => (hpast i).mpr
      (.inr ((h.settled j hj).2 (fun hg => hn (.inr hg)) i hij))⟩
  · intro j hj
    rw [hi]
    rcases (hgone j).mp hj with rfl | hj
    · exact hk
    · exact h.gone j hj

/-- An entry that was dropped is acked. -/
theorem ackDropped (h : InOrder old f) (hk : f.Gone old k)
    (hq : f'.queued = f.queued) (hi : f'.inbox = f.inbox)
    (ha : f'.acked = k :: f.acked) (hd : f'.dropped = f.dropped) : InOrder old f' := by
  have hgone : f'.Gone old = f.Gone old := by unfold HostFlow.Gone; rw [hd]
  have hpast : ∀ i, f'.Past old i ↔ f.Past old i := fun i => by
    unfold HostFlow.Past
    rw [ha, hgone, List.mem_cons]
    constructor
    · rintro ((rfl | hi) | hi)
      · exact .inr hk
      · exact .inl hi
      · exact .inr hi
    · exact Or.imp_left .inr
  constructor
  · rw [hq]; exact h.sorted
  · intro j hj
    rw [hi, hpast]
    exact h.waiting j (hq ▸ hj)
  · intro j hj i hij
    rw [hpast, hq]
    exact h.before j (hq ▸ hj) i hij
  · intro j hj
    rw [hi, hgone]
    rcases List.mem_cons.mp (ha ▸ hj) with rfl | hj
    · exact ⟨h.gone j hk, fun hn => absurd hk hn⟩
    · exact ⟨(h.settled j hj).1, fun hn i hij =>
        (hpast i).mpr ((h.settled j hj).2 hn i hij)⟩
  · rw [hgone, hi]; exact h.gone

/-- **A backlog there is room for comes to wait as a whole**, if all that is
before it is past, or waits. -/
theorem enqueueAll {rs : List InboxRecord} (h : InOrder old f)
    (hl : Lifecycle f.toLife) (hroom : rs = [] ∨ f.Room rs.length)
    (hsorted : (rs.map InboxRecord.id).Pairwise (· < ·))
    (hnew : ∀ r ∈ rs, r.id < f.inbox.length ∧ ¬f.Past old r.id ∧ r.id ∉ f.queued)
    (hb : ∀ r ∈ rs, ∀ i < r.id,
      f.Past old i ∨ i ∈ f.queued ∨ i ∈ rs.map InboxRecord.id) :
    InOrder old (f.enqueueAll rs)
      ∧ (f.enqueueAll rs).queued = f.queued ++ rs.map InboxRecord.id := by
  induction rs generalizing f with
  | nil => exact ⟨h, (List.append_nil _).symm⟩
  | cons r rs ih =>
    rw [List.map_cons, List.pairwise_cons] at hsorted
    obtain ⟨hr, hroom'⟩ := (hroom.resolve_left (List.cons_ne_nil _ _)).enqueue
      (.tell r.entry.type r.entry.payload r.id)
    obtain ⟨hlt, hpast, hn⟩ := hnew r List.mem_cons_self
    have hq : (f.enqueue (.tell r.entry.type r.entry.payload r.id)).queued
        = f.queued ++ [r.id] := by
      rw [HostFlow.queued_enqueue hl, if_pos hr]
      rfl
    have hfirst : ∀ i < r.id, f.Past old i ∨ i ∈ f.queued := by
      intro i hi
      refine (hb r List.mem_cons_self i hi).imp_right (fun hm => hm.resolve_right (fun hm => ?_))
      rcases List.mem_cons.mp hm with rfl | hm
      · exact absurd hi (lt_irrefl _)
      · exact absurd (hsorted.1 i hm) (by omega)
    have h₁ := h.snoc hlt hpast hn hfirst hq rfl rfl rfl
    rw [HostFlow.enqueueAll, hr]
    show InOrder old ((f.enqueue _).enqueueAll rs)
      ∧ ((f.enqueue _).enqueueAll rs).queued = _
    obtain ⟨h₂, hq₂⟩ := ih h₁ (hl.enqueue _) (.inr hroom') hsorted.2
      (fun r' hr' => by
        obtain ⟨hlt', hpast', hn'⟩ := hnew r' (List.mem_cons_of_mem _ hr')
        refine ⟨hlt', hpast', fun hm => ?_⟩
        rcases List.mem_append.mp (hq ▸ hm) with hm | hm
        · exact hn' hm
        · have := hsorted.1 r'.id (List.mem_map_of_mem hr')
          rw [List.mem_singleton.mp hm] at this
          exact absurd this (lt_irrefl _))
      (fun r' hr' i hi => by
        rw [hq, List.mem_append, List.mem_singleton]
        rcases hb r' (List.mem_cons_of_mem _ hr') i hi with hp | hm | hm
        · exact .inl hp
        · exact .inr (.inl (.inl hm))
        · rcases List.mem_cons.mp hm with rfl | hm
          · exact .inr (.inl (.inr rfl))
          · exact .inr (.inr hm))
    refine ⟨h₂, ?_⟩
    rw [hq₂, hq, List.append_assoc]
    rfl

end InOrder

/-! ## The backlog

What the activation finds pending was appended before the host was there, and
is placed before anything else. -/

/-- What is read is pending, and is what the inbox has. -/
theorem entry_of_mem_pendingInbox {inbox : List InboxEntry} {acked : List ℕ}
    {r : InboxRecord} (h : r ∈ pendingInbox inbox acked) :
    inbox[r.id]? = some r.entry := by
  obtain ⟨hr, -⟩ := List.mem_filter.mp h
  obtain ⟨i, hi, rfl⟩ := List.mem_mapIdx.mp hr
  exact List.getElem?_eq_getElem hi

/-- What is not acked is read. -/
theorem mem_pendingInbox {inbox : List InboxEntry} {acked : List ℕ} {id : ℕ}
    (hid : id < inbox.length) (hn : id ∉ acked) :
    id ∈ (pendingInbox inbox acked).map InboxRecord.id := by
  refine List.mem_map.mpr ⟨⟨id, inbox[id]⟩, List.mem_filter.mpr ⟨?_, ?_⟩, rfl⟩
  · exact List.mem_mapIdx.mpr ⟨id, hid, rfl⟩
  · simpa using hn

/-- **What an activation finds in the inbox**: of the entries below `first`,
which is how many there were when the host was constructed, each is acked or
to be replayed, and once the backlog is placed what is to be replayed is
acked, or waits. -/
structure Backlog (old : List ℕ) (first : ℕ) (f : HostFlow) : Prop where
  bound : first ≤ f.inbox.length
  /-- Once the inbox is read, every entry that was there is acked or to be
  replayed. -/
  heard : f.activated = true ∨ f.phase ≠ .idle ∧ f.phase ≠ .finishing →
    ∀ id < first, id ∈ f.acked ∨ id ∈ f.replayable
  known : ∀ id ∈ f.replayable, id < f.inbox.length
  entries : ∀ pending, f.phase = .replaying pending →
    ∀ r ∈ pending, f.inbox[r.id]? = some r.entry
  ordered : ∀ pending, f.phase = .replaying pending →
    (pending.map InboxRecord.id).Pairwise (· < ·)
  before : ∀ pending, f.phase = .replaying pending → ∀ r ∈ pending, ∀ i < r.id,
    f.Past old i ∨ i ∈ f.queued ∨ i ∈ pending.map InboxRecord.id
  read : ∀ pending, f.phase = .replaying pending → ∀ id ∈ f.replayable,
    id ∈ f.acked ∨ id ∈ f.queued ∨ id ∈ pending.map InboxRecord.id
  /-- Once the replay is over, what was to be replayed is acked, or waits. -/
  placed : f.activated = true → f.phase = .finishing ∨ f.phase = .idle →
    ∀ id ∈ f.replayable, id ∈ f.acked ∨ id ∈ f.queued

namespace Backlog

variable {f f' : HostFlow} {old : List ℕ} {first : ℕ}

/-- **The backlog stays as it is** where inbox, acks and drops only grow, and
nothing that waits is lost but by being acked. -/
theorem mono (h : Backlog old first f) (hi : f.inbox <+: f'.inbox)
    (ha : f.acked ⊆ f'.acked) (hd : f.dropped ⊆ f'.dropped)
    (hq : ∀ id ∈ f.queued, id ∈ f'.acked ∨ id ∈ f'.queued)
    (hr : f'.replayable = f.replayable) (hp : f'.phase = f.phase)
    (hact : f'.activated = true → f.activated = true) : Backlog old first f' := by
  have hwait : ∀ {id}, id ∈ f.acked ∨ id ∈ f.queued → id ∈ f'.acked ∨ id ∈ f'.queued :=
    fun h => h.elim (fun h => .inl (ha h)) (hq _)
  constructor
  · exact h.bound.trans hi.length_le
  · rw [hp, hr]
    exact fun h₁ id hid => (h.heard (h₁.imp_left hact) id hid).imp_left (fun h => ha h)
  · rw [hr]
    exact fun id hid => lt_of_lt_of_le (h.known id hid) hi.length_le
  · rw [hp]
    intro pending hpc r hm
    have he := h.entries pending hpc r hm
    obtain ⟨es, hes⟩ := hi
    rw [← hes, List.getElem?_append_left (List.getElem?_eq_some_iff.mp he).1]
    exact he
  · rw [hp]; exact h.ordered
  · rw [hp]
    intro pending hpc r hm i hir
    rcases h.before pending hpc r hm i hir with (hack | hgone) | hw | hm
    · exact .inl (.inl (ha hack))
    · exact .inl (.inr (hgone.imp_left (fun h => hd h)))
    · exact (hq i hw).elim (fun h => .inl (.inl h)) (fun h => .inr (.inl h))
    · exact .inr (.inr hm)
  · rw [hp, hr]
    intro pending hpc id hid
    rcases h.read pending hpc id hid with hack | hw | hm
    · exact .inl (ha hack)
    · exact (hq id hw).imp_right .inl
    · exact .inr (.inr hm)
  · rw [hp, hr]
    exact fun h₁ h₂ id hid => hwait (h.placed (hact h₁) h₂ id hid)


/-- The activation goes on, before it reads the inbox. -/
theorem setPhase (h : Backlog old first f)
    (he : f.activated = true ∨ f.phase ≠ .idle ∧ f.phase ≠ .finishing)
    (hi : f'.inbox = f.inbox) (ha : f'.acked = f.acked)
    (hr : f'.replayable = f.replayable)
    (hp : f'.phase = .loading ∨ f'.phase = .opening ∨ f'.phase = .reading) :
    Backlog old first f' := by
  have hno : ∀ {p}, f'.phase = p → p = .finishing ∨ p = .idle ∨
      (∃ pending, p = .replaying pending) → False := by
    rintro p rfl
    rcases hp with hp | hp | hp <;> simp [hp]
  constructor
  · rw [hi]; exact h.bound
  · rw [ha, hr]; exact fun _ => h.heard he
  · rw [hr, hi]; exact h.known
  · exact fun pending hpc => (hno hpc (.inr (.inr ⟨_, rfl⟩))).elim
  · exact fun pending hpc => (hno hpc (.inr (.inr ⟨_, rfl⟩))).elim
  · exact fun pending hpc => (hno hpc (.inr (.inr ⟨_, rfl⟩))).elim
  · exact fun pending hpc => (hno hpc (.inr (.inr ⟨_, rfl⟩))).elim
  · rintro - (hpc | hpc)
    · exact (hno hpc (.inl rfl)).elim
    · exact (hno hpc (.inr (.inl rfl))).elim

/-- It settles. -/
theorem settle (h : Backlog old first f) (hi : f'.inbox = f.inbox)
    (ha : f'.acked = f.acked) (hr : f'.replayable = f.replayable)
    (hq : f'.queued = f.queued) (hact : f'.activated = f.activated)
    (hp : f'.phase = .finishing ∨ f'.phase = .idle)
    (hplaced : f.activated = true → ∀ id ∈ f.replayable, id ∈ f.acked ∨ id ∈ f.queued) :
    Backlog old first f' := by
  have hno : ∀ {pending}, f'.phase ≠ .replaying pending := by
    rcases hp with hp | hp <;> simp [hp]
  constructor
  · rw [hi]; exact h.bound
  · rw [hact, ha, hr]
    rintro (h₁ | ⟨hidle, hfin⟩)
    · exact h.heard (.inl h₁)
    · exact (hp.elim hfin hidle).elim
  · rw [hr, hi]; exact h.known
  · exact fun pending hpc => absurd hpc hno
  · exact fun pending hpc => absurd hpc hno
  · exact fun pending hpc => absurd hpc hno
  · exact fun pending hpc => absurd hpc hno
  · rw [hact, ha, hr, hq]; exact fun h₁ _ => hplaced h₁

end Backlog

/-! ## What a step applies -/

namespace HostFlow

variable {f f' : HostFlow} {old : List ℕ} {g k : ℕ}

theorem applied_frame (hi : f'.inbox = f.inbox) (ha : f'.acked = f.acked)
    (hd : f'.dropped = f.dropped) : f'.applied old = f.applied old := by
  unfold applied
  rw [hi, ha, hd]

/-- **Nothing is applied in a step**, and nothing is taken from the inbox. -/
structure Still (old : List ℕ) (f f' : HostFlow) : Prop where
  applied : f'.applied old = f.applied old
  inbox : f.inbox <+: f'.inbox

namespace Still

theorem of_eq (hi : f'.inbox = f.inbox) (ha : f'.acked = f.acked)
    (hd : f'.dropped = f.dropped) : f.Still old f' :=
  ⟨applied_frame hi ha hd, hi ▸ List.prefix_refl _⟩

theorem trans {f₁ : HostFlow} (h : f.Still old f₁) (h' : f₁.Still old f') :
    f.Still old f' :=
  ⟨h'.applied.trans h.applied, h.inbox.trans h'.inbox⟩

theorem of_opening (h : f.Opening f') : f.Still old f' := by
  cases h <;> exact of_eq rfl rfl rfl

theorem of_activating (old : List ℕ) (h : f.Activating f') : f.Still old f' := by
  cases h with
  | @replayed pending hp =>
    have hfr := f.enqueueAll_frame pending
    refine of_eq ?_ ?_ ?_
    · show (f.enqueueAll pending).inbox = f.inbox
      rw [hfr]
    · show (f.enqueueAll pending).acked = f.acked
      rw [hfr]
    · show (f.enqueueAll pending).dropped = f.dropped
      rw [hfr]
  | _ => exact of_eq rfl rfl rfl

theorem of_calling {c : ℕ} (h : f.Calling c f') : f.Still old f' := by
  cases h <;> exact of_eq rfl rfl rfl

theorem of_deactivating (h : f.Deactivating f') : f.Still old f' := by
  cases h <;> exact of_eq rfl rfl rfl

theorem of_closing (hl : Lifecycle f.toLife) (h : f.Closing f') : f.Still old f' := by
  cases h with
  | none => exact of_eq rfl rfl rfl
  | close hd ha hg => exact of_eq rfl rfl rfl
  | unattended _ hd ha hg => exact absurd hg (hl.present ha (by simp [hd])).1

end Still

theorem mem_queued_of_toAck (hl : Lifecycle f.toLife)
    (hg : (f.workers g).toAck = some k) : k ∈ f.queued := by
  have hlive : (f.workers g).alive = true := by
    by_contra hdead
    rw [WorkerStage.toAck_of_dead (by simpa using hdead)] at hg
    exact absurd hg (by simp)
  rw [queued, inHand_of_alive hl hlive, hg]
  exact List.mem_cons_self

end HostFlow

namespace InOrder

variable {f f' : HostFlow} {old : List ℕ} {k : ℕ}

theorem applied_append (h : InOrder old f) {e : InboxEntry}
    (hi : f'.inbox = f.inbox ++ [e]) (ha : f'.acked = f.acked)
    (hd : f'.dropped = f.dropped) : f'.applied old = f.applied old := by
  refine HostFlow.applied_eq (HostFlow.sorted_applied f old) (fun id => ?_)
  rw [HostFlow.mem_applied, hi, ha, List.length_append]
  have hgone : f'.Gone old id ↔ f.Gone old id := by unfold HostFlow.Gone; rw [hd]
  rw [hgone]
  constructor
  · exact fun ⟨hlt, hid⟩ => ⟨Nat.lt_add_right _ hlt, hid⟩
  · exact fun ⟨_, hid⟩ => ⟨(h.settled id hid.1).1, hid⟩

/-- A drop of an entry that is not acked. -/
theorem applied_drop (hk : k ∉ f.acked) (hi : f'.inbox = f.inbox)
    (ha : f'.acked = f.acked) (hd : f'.dropped = k :: f.dropped) :
    f'.applied old = f.applied old := by
  refine HostFlow.applied_eq (HostFlow.sorted_applied f old) (fun id => ?_)
  rw [HostFlow.mem_applied, hi, ha]
  unfold HostFlow.Gone
  rw [hd, List.mem_cons]
  constructor
  · rintro ⟨hlt, hid, hn⟩
    refine ⟨hlt, hid, fun hg => hn ?_⟩
    rcases hg with (rfl | hg) | hg
    · exact absurd hid hk
    · exact .inl hg
    · exact .inr hg
  · exact fun ⟨hlt, hid, hn⟩ => ⟨hlt, hid, fun hg => hn (hg.imp_left .inr)⟩

theorem applied_ackDropped (hk : f.Gone old k) (hi : f'.inbox = f.inbox)
    (ha : f'.acked = k :: f.acked) (hd : f'.dropped = f.dropped) :
    f'.applied old = f.applied old := by
  refine HostFlow.applied_eq (HostFlow.sorted_applied f old) (fun id => ?_)
  have hgone : f'.Gone old id ↔ f.Gone old id := by unfold HostFlow.Gone; rw [hd]
  rw [HostFlow.mem_applied, hi, ha, hgone, List.mem_cons]
  constructor
  · exact fun ⟨hlt, hid, hn⟩ => ⟨hlt, .inr hid, hn⟩
  · rintro ⟨hlt, rfl | hid, hn⟩
    · exact absurd hk hn
    · exact ⟨hlt, hid, hn⟩

/-- **An entry that waited is applied**, after all that are applied. -/
theorem applied_ack (h : InOrder old f) (hk : k ∈ f.queued) (hi : f'.inbox = f.inbox)
    (ha : f'.acked = k :: f.acked) (hd : f'.dropped = f.dropped) :
    f'.applied old = f.applied old ++ [k] := by
  obtain ⟨hlt, hpast⟩ := h.waiting k hk
  have hgone : ∀ id, f'.Gone old id ↔ f.Gone old id := fun id => by
    unfold HostFlow.Gone
    rw [hd]
  have hbelow : ∀ j ∈ f.applied old, j < k := by
    intro j hj
    obtain ⟨-, hack, hn⟩ := HostFlow.mem_applied.mp hj
    rcases lt_trichotomy j k with hjk | rfl | hkj
    · exact hjk
    · exact absurd (.inl hack) hpast
    · exact absurd ((h.settled j hack).2 hn k hkj) hpast
  refine HostFlow.applied_eq (List.pairwise_append.mpr ⟨HostFlow.sorted_applied f old,
    List.pairwise_singleton _ _, fun j hj l hl => List.mem_singleton.mp hl ▸ hbelow j hj⟩)
    (fun id => ?_)
  rw [List.mem_append, List.mem_singleton, HostFlow.mem_applied, hi, ha, hgone,
    List.mem_cons]
  constructor
  · rintro (⟨hid, hack, hn⟩ | rfl)
    · exact ⟨hid, .inr hack, hn⟩
    · exact ⟨hlt, .inl rfl, fun hg => hpast (.inr hg)⟩
  · rintro ⟨hid, rfl | hack, hn⟩
    · exact .inr rfl
    · exact .inl ⟨hid, hack, hn⟩

end InOrder
