import Actjs.Lifecycle

/-!
# What is in flight

A message is in flight while it is in the buffer or in the hands of a
worker. What counts as in hand depends on the question – a call until its
promise is settled, a tell until its entry is dealt with – so the lemmas
here are about any `Reading` of what a worker holds: no move of the mailbox
loses anything, and what a worker lets go of is what the move of that worker
says.
-/

open Function (update)

/-- **A reading of messages by number**: the number an item goes by, if it
has one, and the number of what a worker has in hand. -/
structure Reading where
  key : Item → Option ℕ
  hand : WorkerStage → Option ℕ
  received : ∀ item, hand (.received item) = key item
  looping : hand .looping = none
  waiting : hand .waiting = none
  exiting : hand .exiting = none
  dead : ∀ w, w.alive = false → hand w = none

variable {f f' : HostFlow} {g k : ℕ}

/-- Number `k` is in flight. -/
def HostFlow.Has (f : HostFlow) (r : Reading) (k : ℕ) : Prop :=
  (∃ item ∈ f.mailbox.buffer, r.key item = some k)
    ∨ ∃ g, r.hand (f.workers g) = some k

namespace HostFlow.Has

variable {r : Reading}

/-- What is in flight does not depend on the rest of the flow. -/
theorem frame (h : f.Has r k) (hw : f'.workers = f.workers)
    (hb : f'.mailbox.buffer = f.mailbox.buffer) : f'.Has r k := by
  rw [Has, hw, hb]
  exact h

/-- **A worker that moves** lets go of nothing but what it had in hand. -/
theorem move (h : f.Has r k) {w : WorkerStage}
    (hw : f'.workers = update f.workers g w) (hm : f'.mailbox = f.mailbox)
    (hk : r.hand (f.workers g) = some k → r.hand w = some k) : f'.Has r k := by
  rw [Has, hm, hw]
  refine h.imp_right (fun ⟨g', hg'⟩ => ⟨g', ?_⟩)
  rw [Function.update_apply]
  split
  · next he => exact hk (he ▸ hg')
  · exact hg'

/-- A worker that dequeues takes an item from the buffer into its hands. -/
theorem dequeue (h : f.Has r k) (hg : r.hand (f.workers g) = none) :
    (f.dequeue g).Has r k := by
  have hkeep : ∀ w, r.hand (f.workers g) = some k → r.hand w = some k :=
    fun w hw => absurd (hg.symm.trans hw) (by simp)
  unfold HostFlow.dequeue
  rcases f.mailbox.dequeue_cases g with ⟨x, m, he, hb, -⟩ | ⟨he, -⟩
    | ⟨m, he, hb, -, hb', -⟩ <;> rw [he]
  · rcases h with ⟨item, hi, hk⟩ | ⟨g', hg'⟩
    · rw [hb, List.mem_cons] at hi
      rcases hi with rfl | hi
      · refine .inr ⟨g, ?_⟩
        show r.hand ((f.setWorker g (.received item)).workers g) = some k
        rw [HostFlow.setWorker_workers, if_pos rfl, r.received, hk]
      · exact .inl ⟨item, hi, hk⟩
    · refine .inr ⟨g', ?_⟩
      show r.hand ((f.setWorker g (.received x)).workers g') = some k
      rw [HostFlow.setWorker_workers]
      split
      · next hg'' => exact absurd (hg''.symm ▸ hg') (by simp [hg])
      · exact hg'
  · exact h.move rfl rfl (hkeep _)
  · rcases h with ⟨item, hi, -⟩ | ⟨g', hg'⟩
    · exact absurd hi (by simp [hb])
    · refine .inr ⟨g', ?_⟩
      show r.hand ((f.setWorker g .waiting).workers g') = some k
      rw [HostFlow.setWorker_workers]
      split
      · next hg'' => exact absurd (hg''.symm ▸ hg') (by simp [hg])
      · exact hg'

/-- Enqueueing an item loses nothing, -/
theorem enqueue (h : f.Has r k) (hl : Lifecycle f.toLife) (item : Item) :
    (f.enqueue item).Has r k := by
  unfold HostFlow.enqueue
  rcases f.mailbox.enqueue_cases item with ⟨he, -⟩ | ⟨he, -⟩
    | ⟨w, m, he, -, hws, hb, -⟩ | ⟨m, he, -, -, -, -, hb, -⟩ <;> rw [he]
  · exact h.frame rfl rfl
  · exact h.frame rfl rfl
  · have hwait := hl.waits w (by rw [hws]; exact List.mem_cons_self)
    rcases h with ⟨item', hi, hk⟩ | ⟨g', hg'⟩
    · exact .inl ⟨item', by rw [hb]; exact hi, hk⟩
    · refine .inr ⟨g', ?_⟩
      have hne : g' ≠ w := by
        rintro rfl
        rw [hwait, r.waiting] at hg'
        exact absurd hg' (by simp)
      show r.hand (update f.workers w _ g') = some k
      rw [Function.update_of_ne hne]
      exact hg'
  · refine h.imp_left (fun ⟨item', hi, hk⟩ => ⟨item', ?_, hk⟩)
    rw [hb]
    exact List.mem_append_left _ hi

/-- and an item that is accepted is in flight. -/
theorem of_accepted {item : Item}
    (hr : (f.mailbox.enqueue item).result = .accepted)
    (hk : r.key item = some k) : (f.enqueue item).Has r k := by
  unfold HostFlow.enqueue
  rcases f.mailbox.enqueue_cases item with ⟨he, -⟩ | ⟨he, -⟩
    | ⟨w, m, he, -, hws, hb, -⟩ | ⟨m, he, -, -, -, -, hb, -⟩ <;> rw [he] at hr ⊢
  · exact absurd hr (by simp)
  · exact absurd hr (by simp)
  · refine .inr ⟨w, ?_⟩
    show r.hand (update f.workers w (.received item) w) = some k
    rw [Function.update_self, r.received, hk]
  · refine .inl ⟨item, ?_, hk⟩
    rw [hb]
    exact List.mem_append_right _ List.mem_cons_self

theorem enqueueAll (h : f.Has r k) (hl : Lifecycle f.toLife)
    (rs : List InboxRecord) : (f.enqueueAll rs).Has r k := by
  induction rs generalizing f with
  | nil => exact h
  | cons x rs ih =>
    rw [HostFlow.enqueueAll]
    split
    · exact h
    · exact ih (h.enqueue hl _) (hl.enqueue _)

/-- Closing the mailbox wakes workers that have nothing in hand. -/
theorem closeMailbox (h : f.Has r k) (hl : Lifecycle f.toLife) :
    f.closeMailbox.Has r k := by
  refine h.imp_right (fun ⟨g', hg'⟩ => ⟨g', ?_⟩)
  have hne : g' ∉ f.mailbox.waiters := by
    intro hm
    rw [hl.waits g' hm, r.waiting] at hg'
    exact absurd hg' (by simp)
  show r.hand (if g' ∈ f.mailbox.waiters then _ else f.workers g') = some k
  rw [if_neg hne]
  exact hg'

/-- Nothing is in flight once the buffer is empty and no worker is alive. -/
theorem not_of_dead (hb : f.mailbox.buffer = [])
    (hdead : ∀ g, (f.workers g).alive = false) : ¬f.Has r k := by
  rintro (⟨item, hi, -⟩ | ⟨g, hg⟩)
  · exact absurd hi (by simp [hb])
  · exact absurd hg (by simp [r.dead _ (hdead g)])

/-- Becoming activated keeps what the mailbox already holds in flight. -/
theorem activated (h : f.Has r k) (hl : Lifecycle f.toLife) {i : Option ℕ}
    (hi : f.Constructs i) :
    { { f with
        inst := i
        activated := true
        workerPromise := some f.activation }.dequeue
          f.activation with phase := Phase.reading }.Has r k := by
  have ha := (hl.early (by cases hi <;> simp_all)).1
  have hg : r.hand (f.workers f.activation) = none :=
    r.dead _ (hl.not_alive ha f.activation)
  have h₁ : { f with
      inst := i
      activated := true
      workerPromise := some f.activation }.Has r k := h.frame rfl rfl
  exact (h₁.dequeue hg).frame rfl rfl

/-- **Nothing in flight is lost by an activation** once it has begun. -/
theorem of_activating (h : f.Has r k) (hl : Lifecycle f.toLife)
    (hs : f.Activating f') : f'.Has r k := by
  cases hs with
  | activated hi => exact h.activated hl hi
  | replayed hp => exact (h.enqueueAll hl _).frame rfl rfl
  | _ => exact h.frame rfl rfl

/-- Nor by a deactivation. -/
theorem of_deactivating (h : f.Has r k) (hs : f.Deactivating f') :
    f'.Has r k := by
  cases hs <;> exact h.frame rfl rfl

theorem of_closing (h : f.Has r k) (hl : Lifecycle f.toLife)
    (hs : f.Closing f') : f'.Has r k := by
  cases hs with
  | none => exact h
  | close hd ha hg => exact (h.closeMailbox hl).frame rfl rfl
  | unattended _ hd ha hg => exact absurd hg (hl.present ha (by simp [hd])).1

/-- Nor by other requests. -/
theorem of_telling {t : ℕ} (h : f.Has r k) (hl : Lifecycle f.toLife)
    (hs : f.Telling t f') : f'.Has r k := by
  cases hs with
  | accept ht hr => exact (h.enqueue hl _).frame rfl rfl
  | _ => exact h.frame rfl rfl

theorem of_calling {c : ℕ} (h : f.Has r k) (hl : Lifecycle f.toLife)
    (hs : f.Calling c f') : f'.Has r k := by
  cases hs with
  | move hp => exact h.frame rfl rfl
  | accept method args hf hr => exact (h.enqueue hl _).frame rfl rfl

end HostFlow.Has

/-! ## Tells in flight

The reading of tells: a tell goes by the position of its inbox entry, and is
in hand until the entry is dealt with. -/

/-- The inbox entry a worker has in its hands. -/
def WorkerStage.heldEntry : WorkerStage → Option ℕ
  | received item => item.inboxId?
  | turn item => item.inboxId?
  | acking item _ => item.inboxId?
  | ended item => item.inboxId?
  | unhandled id => some id
  | _ => none

/-- Tells by the entry they stand for, in flight until the worker is through
with them. -/
def Reading.tell : Reading where
  key := Item.inboxId?
  hand := WorkerStage.heldEntry
  received _ := rfl
  looping := rfl
  waiting := rfl
  exiting := rfl
  dead w h := by
    cases w <;> first | rfl | exact absurd h (by simp [WorkerStage.alive])
