import Actjs.Mailbox
import Mathlib.Data.List.Infix
import Mathlib.Data.List.Nodup
import Mathlib.Data.List.Range

/-!
# The history of a mailbox

Any number of producers and consumers call a mailbox. Its history is what they see of
it, in the order in which it happens: which items were accepted, refused or thrown on,
which `dequeue` was called, and what each of them resolved with. The dequeues are
numbered in the order of their calls, and a waiter is the number of its dequeue.

An item that is handed to a waiter never enters the buffer, so what is delivered and what
is buffered are found in two places. `MailboxRun.Recorded` puts them together again: what
was accepted is what was delivered followed by the buffer, and the dequeues that were
called are those that have resolved followed by the waiters.
-/

variable {T : Type}

/-- What is called on a mailbox. -/
inductive MailboxAct (T : Type) where
  | enqueue (item : T)
  | dequeue
  | close

/-- **What can be seen of a mailbox.** -/
inductive MailboxEvent (T : Type) where
  | accepted (item : T)
  /-- `enqueue` returned `false`. -/
  | refused (item : T)
  /-- `enqueue` threw `MailboxClosedError`. -/
  | threw (item : T)
  | called (dequeue : ℕ)
  /-- The promise of the dequeue is resolved with the item. -/
  | delivered (dequeue : ℕ) (item : T)
  /-- The promise of the dequeue is resolved with `null`. -/
  | ended (dequeue : ℕ)
  | closed

namespace MailboxEvent

@[simp] def accepted? : MailboxEvent T → Option T
  | accepted item => some item
  | _ => none

@[simp] def delivered? : MailboxEvent T → Option T
  | delivered _ item => some item
  | _ => none

@[simp] def called? : MailboxEvent T → Option ℕ
  | called n => some n
  | _ => none

/-- The dequeue whose promise is resolved. -/
@[simp] def resolved? : MailboxEvent T → Option ℕ
  | delivered n _ => some n
  | ended n => some n
  | _ => none

end MailboxEvent

/-- **A mailbox and its history.** -/
structure MailboxRun (T : Type) where
  mailbox : Mailbox ℕ T
  /-- How many dequeues have been called. -/
  dequeues : ℕ
  log : List (MailboxEvent T)

namespace MailboxRun

/-- A new mailbox. -/
def new (capacity : ℕ) (h : 0 < capacity) : MailboxRun T := ⟨.new capacity h, 0, []⟩

def enqueue (s : MailboxRun T) (item : T) : MailboxRun T :=
  match s.mailbox.enqueue item with
  | ⟨.closed, m, _⟩ => { s with mailbox := m, log := s.log ++ [.threw item] }
  | ⟨.full, m, _⟩ => { s with mailbox := m, log := s.log ++ [.refused item] }
  | ⟨.accepted, m, none⟩ => { s with mailbox := m, log := s.log ++ [.accepted item] }
  | ⟨.accepted, m, some w⟩ =>
    { s with mailbox := m, log := s.log ++ [.accepted item] ++ [.delivered w item] }

def dequeue (s : MailboxRun T) : MailboxRun T :=
  let log := s.log ++ [.called s.dequeues]
  match s.mailbox.dequeue s.dequeues with
  | ⟨.item item, m⟩ => ⟨m, s.dequeues + 1, log ++ [.delivered s.dequeues item]⟩
  | ⟨.null, m⟩ => ⟨m, s.dequeues + 1, log ++ [.ended s.dequeues]⟩
  | ⟨.blocked, m⟩ => ⟨m, s.dequeues + 1, log⟩

def close (s : MailboxRun T) : MailboxRun T :=
  if s.mailbox.closed = true then s
  else
    { s with
      mailbox := s.mailbox.close
      log := s.log ++ [.closed] ++ s.mailbox.waiters.map .ended }

def call (s : MailboxRun T) : MailboxAct T → MailboxRun T
  | .enqueue item => s.enqueue item
  | .dequeue => s.dequeue
  | .close => s.close

/-- The mailbox after these calls. -/
def after (s : MailboxRun T) (acts : List (MailboxAct T)) : MailboxRun T := acts.foldl call s

/-! ## Reading a history -/

/-- The items that were accepted, in the order of their acceptance. -/
def accepted (log : List (MailboxEvent T)) : List T := log.filterMap MailboxEvent.accepted?

/-- The items that dequeues resolved with, in that order. -/
def delivered (log : List (MailboxEvent T)) : List T := log.filterMap MailboxEvent.delivered?

/-- The dequeues that were called. -/
def called (log : List (MailboxEvent T)) : List ℕ := log.filterMap MailboxEvent.called?

/-- The dequeues that have resolved. -/
def resolved (log : List (MailboxEvent T)) : List ℕ := log.filterMap MailboxEvent.resolved?

/-- **What may happen after a history.** An item is refused only where as many are
accepted and not delivered as the capacity allows, and no dequeue waits; it is accepted
before the close, and thrown on after it. A dequeue resolves with `null` only after the
close, when all that was accepted has been delivered. -/
def Timely (capacity : ℕ) (before : List (MailboxEvent T)) : MailboxEvent T → Prop
  | .accepted _ => .closed ∉ before
  | .refused _ => .closed ∉ before
      ∧ (accepted before).length = (delivered before).length + capacity
      ∧ resolved before = called before
  | .threw _ => .closed ∈ before
  | .ended _ => .closed ∈ before ∧ accepted before = delivered before
  | _ => True

/-- Every event of the history may happen after what is before it. -/
def Throughout (P : List (MailboxEvent T) → MailboxEvent T → Prop)
    (log : List (MailboxEvent T)) : Prop :=
  ∀ before e, before ++ [e] <+: log → P before e

section Reading

variable {log es : List (MailboxEvent T)} {e : MailboxEvent T}
  {P : List (MailboxEvent T) → MailboxEvent T → Prop}

@[simp] theorem accepted_append :
    accepted (log ++ es) = accepted log ++ accepted es := List.filterMap_append

@[simp] theorem delivered_append :
    delivered (log ++ es) = delivered log ++ delivered es := List.filterMap_append

@[simp] theorem called_append : called (log ++ es) = called log ++ called es :=
  List.filterMap_append

@[simp] theorem resolved_append : resolved (log ++ es) = resolved log ++ resolved es :=
  List.filterMap_append

@[simp] theorem accepted_cons : accepted (e :: es) = e.accepted?.toList ++ accepted es := by
  cases e <;> rfl

@[simp] theorem delivered_cons : delivered (e :: es) = e.delivered?.toList ++ delivered es := by
  cases e <;> rfl

@[simp] theorem called_cons : called (e :: es) = e.called?.toList ++ called es := by
  cases e <;> rfl

@[simp] theorem resolved_cons : resolved (e :: es) = e.resolved?.toList ++ resolved es := by
  cases e <;> rfl

@[simp] theorem accepted_nil : accepted ([] : List (MailboxEvent T)) = [] := rfl
@[simp] theorem delivered_nil : delivered ([] : List (MailboxEvent T)) = [] := rfl
@[simp] theorem called_nil : called ([] : List (MailboxEvent T)) = [] := rfl
@[simp] theorem resolved_nil : resolved ([] : List (MailboxEvent T)) = [] := rfl

theorem Throughout.nil : Throughout P [] := by
  intro before e h
  exact absurd (List.prefix_nil.mp h) (by simp)

/-- One more event. -/
theorem Throughout.concat (h : Throughout P log) (he : P log e) :
    Throughout P (log ++ [e]) := by
  intro before e' h'
  rcases List.prefix_concat_iff.mp h' with heq | hpre
  · obtain ⟨rfl, hlast⟩ := List.append_inj' heq rfl
    exact List.singleton_inj.mp hlast ▸ he
  · exact h before e' hpre

/-- The waiters that a close wakes are those that resolve. -/
theorem readings_ended (ws : List ℕ) :
    accepted (ws.map MailboxEvent.ended : List (MailboxEvent T)) = []
      ∧ delivered (ws.map MailboxEvent.ended : List (MailboxEvent T)) = []
      ∧ called (ws.map MailboxEvent.ended : List (MailboxEvent T)) = []
      ∧ resolved (ws.map MailboxEvent.ended : List (MailboxEvent T)) = ws := by
  induction ws with
  | nil => exact ⟨rfl, rfl, rfl, rfl⟩
  | cons w ws ih => exact ⟨ih.1, ih.2.1, ih.2.2.1, congrArg (w :: ·) ih.2.2.2⟩

/-- They are woken one after the other. -/
theorem Throughout.ended {capacity : ℕ} (ws : List ℕ)
    (h : Throughout (Timely capacity) log) (hc : .closed ∈ log)
    (hd : accepted log = delivered log) :
    Throughout (Timely capacity) (log ++ ws.map .ended) := by
  induction ws generalizing log with
  | nil => rwa [List.map_nil, List.append_nil]
  | cons w ws ih =>
    rw [List.map_cons, List.append_cons]
    refine ih (h.concat ⟨hc, hd⟩) (List.mem_append_left _ hc) ?_
    rw [accepted_append, delivered_append, hd]
    rfl

end Reading

/-! ## What every call keeps

One invariant over the mailbox and its history, kept by every call; the
clauses of the claim are read off it. -/

/-- **The history tells where the items and the dequeues are.** -/
structure Recorded (s : MailboxRun T) : Prop where
  items : accepted s.log = delivered s.log ++ s.mailbox.buffer
  calls : called s.log = resolved s.log ++ s.mailbox.waiters
  numbered : called s.log = List.range s.dequeues
  closed : s.mailbox.closed = true ↔ .closed ∈ s.log
  timely : Throughout (Timely s.mailbox.capacity) s.log

namespace Recorded

variable {s : MailboxRun T}

theorem new (capacity : ℕ) (h : 0 < capacity) : (new capacity h : MailboxRun T).Recorded where
  items := rfl
  calls := rfl
  numbered := rfl
  closed := by simp [MailboxRun.new, Mailbox.new]
  timely := .nil

/-- What happens next, and the mailbox that it leads to. -/
theorem note (h : s.Recorded) {m : Mailbox ℕ T} {n : ℕ} {es : List (MailboxEvent T)}
    (hitems : s.mailbox.buffer ++ accepted es = delivered es ++ m.buffer)
    (hcalls : s.mailbox.waiters ++ called es = resolved es ++ m.waiters)
    (hnum : List.range s.dequeues ++ called es = List.range n)
    (hclosed : m.closed = true ↔ s.mailbox.closed = true ∨ .closed ∈ es)
    (hcap : m.capacity = s.mailbox.capacity)
    (htimely : Throughout (Timely s.mailbox.capacity) (s.log ++ es)) :
    (⟨m, n, s.log ++ es⟩ : MailboxRun T).Recorded where
  items := by
    show accepted (s.log ++ es) = delivered (s.log ++ es) ++ m.buffer
    rw [accepted_append, delivered_append, h.items, List.append_assoc, hitems, List.append_assoc]
  calls := by
    show called (s.log ++ es) = resolved (s.log ++ es) ++ m.waiters
    rw [called_append, resolved_append, h.calls, List.append_assoc, hcalls, List.append_assoc]
  numbered := by
    show called (s.log ++ es) = List.range n
    rw [called_append, h.numbered, hnum]
  closed := by
    show m.closed = true ↔ .closed ∈ s.log ++ es
    rw [hclosed, h.closed, List.mem_append]
  timely := by
    show Throughout (Timely m.capacity) (s.log ++ es)
    rw [hcap]
    exact htimely

/-- A mailbox that is open was never closed. -/
theorem notMem_closed (h : s.Recorded) (hc : s.mailbox.closed = false) : .closed ∉ s.log := by
  rw [← h.closed, hc]
  exact Bool.false_ne_true

theorem enqueue (h : s.Recorded) (item : T) : (s.enqueue item).Recorded := by
  unfold MailboxRun.enqueue
  rcases s.mailbox.enqueue_cases item with ⟨he, hc⟩ | ⟨he, hc, hw, hfull⟩
    | ⟨w, m, he, hc, hw, hb, hc', hcap⟩ | ⟨m, he, hc, hw, hw', hfull, hb, hc', hcap⟩ <;> rw [he]
  · exact h.note (by simp) (by simp) (by simp) (by simp) rfl (h.timely.concat (h.closed.mp hc))
  · -- the buffer is full, and every dequeue has resolved
    have hlen : s.mailbox.buffer.length = s.mailbox.capacity :=
      Nat.le_antisymm s.mailbox.bounded (by simpa [Mailbox.isFull] using hfull)
    refine h.note (by simp) (by simp) (by simp) (by simp) rfl
      (h.timely.concat ⟨h.notMem_closed hc, ?_, ?_⟩)
    · rw [h.items, List.length_append, hlen]
    · rw [h.calls, hw, List.append_nil]
  · -- somebody waits, so the buffer is empty, and the item is the next to be delivered
    have hempty : s.mailbox.buffer = [] := s.mailbox.wakeful (by rw [hw]; simp)
    show (⟨m, s.dequeues, s.log ++ [.accepted item] ++ [.delivered w item]⟩ :
      MailboxRun T).Recorded
    have htimely := (h.timely.concat (e := .accepted item) (h.notMem_closed hc)).concat
      (e := .delivered w item) trivial
    rw [List.append_assoc] at htimely ⊢
    exact h.note (by simp [hb, hempty]) (by simp [hw]) (by simp) (by simp [hc, hc']) hcap htimely
  · exact h.note (by simp [hb]) (by simp [hw, hw']) (by simp) (by simp [hc, hc']) hcap
      (h.timely.concat (h.notMem_closed hc))

theorem dequeue (h : s.Recorded) : s.dequeue.Recorded := by
  unfold MailboxRun.dequeue
  have hcalled : Throughout (Timely s.mailbox.capacity) (s.log ++ [.called s.dequeues]) :=
    h.timely.concat trivial
  rcases s.mailbox.dequeue_cases s.dequeues with ⟨x, m, he, hb, hw, hc, hcap⟩ | ⟨he, hb, hc⟩
    | ⟨m, he, hb, hc, hb', hw, hc', hcap⟩ <;> rw [he] <;> dsimp only
  · -- an item is buffered, so nobody waits
    have hnone : s.mailbox.waiters = [] := by
      by_contra hne
      exact absurd (s.mailbox.wakeful hne) (by simp [hb])
    have htimely := hcalled.concat (e := .delivered s.dequeues x) trivial
    rw [List.append_assoc] at htimely ⊢
    exact h.note (by simp [hb]) (by simp [hnone, hw]) (by simp [List.range_succ])
      (by simp [hc]) hcap htimely
  · -- all that was accepted has been delivered
    have hnone : s.mailbox.waiters = [] := s.mailbox.shut hc
    have hall : accepted s.log = delivered s.log := by rw [h.items, hb, List.append_nil]
    have htimely := hcalled.concat (e := .ended s.dequeues)
      ⟨List.mem_append_left _ (h.closed.mp hc), by simpa using hall⟩
    rw [List.append_assoc] at htimely ⊢
    exact h.note (by simp) (by simp [hnone]) (by simp [List.range_succ]) (by simp) rfl htimely
  · exact h.note (by simp [hb, hb']) (by simp [hw]) (by simp [List.range_succ])
      (by simp [hc, hc']) hcap hcalled

theorem close (h : s.Recorded) : s.close.Recorded := by
  unfold MailboxRun.close
  split
  · exact h
  next hc =>
  obtain ⟨hacc, hdel, hcal, hres⟩ := readings_ended (T := T) s.mailbox.waiters
  have hc' : s.mailbox.closed = false := by simpa using hc
  have hclosing : Throughout (Timely s.mailbox.capacity) (s.log ++ [.closed]) :=
    h.timely.concat trivial
  have htimely : Throughout (Timely s.mailbox.capacity)
      (s.log ++ [.closed] ++ s.mailbox.waiters.map .ended) := by
    cases hw : s.mailbox.waiters with
    | nil => simpa using hclosing
    | cons w ws =>
      -- somebody waits, so the buffer is empty
      have hempty : s.mailbox.buffer = [] := s.mailbox.wakeful (by rw [hw]; simp)
      refine hclosing.ended (w :: ws) (by simp) ?_
      rw [accepted_append, delivered_append, h.items, hempty, List.append_nil]
      rfl
  rw [List.append_assoc] at htimely ⊢
  exact h.note (by simp [hacc, hdel]) (by simp [hcal, hres]) (by simp [hcal])
    (by simp) rfl htimely

/-- **Every call keeps to it.** -/
theorem call (h : s.Recorded) (a : MailboxAct T) : (s.call a).Recorded := by
  cases a with
  | enqueue item => exact h.enqueue item
  | dequeue => exact h.dequeue
  | close => exact h.close

theorem after (h : s.Recorded) (acts : List (MailboxAct T)) : (s.after acts).Recorded := by
  induction acts generalizing s with
  | nil => exact h
  | cons a acts ih => exact ih (h.call a)

end Recorded

theorem capacity_call (s : MailboxRun T) (a : MailboxAct T) :
    (s.call a).mailbox.capacity = s.mailbox.capacity := by
  cases a with
  | enqueue item =>
    show (s.enqueue item).mailbox.capacity = s.mailbox.capacity
    unfold MailboxRun.enqueue
    rcases s.mailbox.enqueue_cases item with ⟨he, -⟩ | ⟨he, -⟩ | ⟨w, m, he, h⟩ | ⟨m, he, h⟩ <;>
      rw [he]
    · exact h.2.2.2.2
    · exact h.2.2.2.2.2.2
  | dequeue =>
    show s.dequeue.mailbox.capacity = s.mailbox.capacity
    unfold MailboxRun.dequeue
    rcases s.mailbox.dequeue_cases s.dequeues with ⟨x, m, he, h⟩ | ⟨he, -⟩ | ⟨m, he, h⟩ <;>
      rw [he]
    · exact h.2.2.2
    · exact h.2.2.2.2.2
  | close =>
    show s.close.mailbox.capacity = s.mailbox.capacity
    unfold MailboxRun.close
    split <;> rfl

theorem capacity_after (s : MailboxRun T) (acts : List (MailboxAct T)) :
    (s.after acts).mailbox.capacity = s.mailbox.capacity := by
  induction acts generalizing s with
  | nil => rfl
  | cons a acts ih => exact (ih (s.call a)).trans (s.capacity_call a)

/-- **A mailbox is a bounded queue**, whatever is called on it, and however many dequeues
are pending. What dequeues resolve with is what was accepted, in that order and without
omissions; and every event comes in its time: an item is refused only while the capacity
is used up and no dequeue waits, and `null` comes only after the close and after all that
was accepted. -/
theorem mailbox_fifo (capacity : ℕ) (hpos : 0 < capacity) (acts : List (MailboxAct T)) :
    let s := (new capacity hpos).after acts
    delivered s.log <+: accepted s.log
      ∧ (resolved s.log).Nodup
      ∧ s.mailbox.buffer.length ≤ capacity
      ∧ (s.mailbox.waiters ≠ [] → s.mailbox.buffer = [])
      ∧ accepted s.log = delivered s.log ++ s.mailbox.buffer
      ∧ Throughout (Timely capacity) s.log := by
  intro s
  have h : s.Recorded := (Recorded.new capacity hpos).after acts
  have hcap : s.mailbox.capacity = capacity := capacity_after _ acts
  refine ⟨⟨_, h.items.symm⟩, ?_, hcap ▸ s.mailbox.bounded, s.mailbox.wakeful, h.items,
    hcap ▸ h.timely⟩
  have hnodup : (resolved s.log ++ s.mailbox.waiters).Nodup := by
    rw [← h.calls, h.numbered]
    exact List.nodup_range
  exact hnodup.of_append_left

/-- Two dequeues wait, three items come for a capacity of one, and the mailbox closes. -/
theorem mailbox_fifo_handedOver :
    let s := (new 1 Nat.one_pos).after
      [.dequeue, .dequeue, .enqueue "a", .enqueue "b", .enqueue "c", .enqueue "d", .close,
        .dequeue, .dequeue]
    accepted s.log = ["a", "b", "c"] ∧ delivered s.log = ["a", "b", "c"]
      ∧ (resolved s.log).Nodup ∧ Throughout (Timely 1) s.log := by
  obtain ⟨-, hnodup, -, -, -, htimely⟩ := mailbox_fifo 1 Nat.one_pos
    [.dequeue, .dequeue, .enqueue "a", .enqueue "b", .enqueue "c", .enqueue "d", .close,
      .dequeue, .dequeue]
  exact ⟨rfl, rfl, hnodup, htimely⟩

end MailboxRun
