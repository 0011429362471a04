import Actjs.Lifecycle

/-!
# The order of the mailbox

What a host handles is what its mailbox accepted, in that order and without
omissions: at every moment the items accepted are those handled so far, then
the item a worker has received and not begun to handle, then the buffer.
This holds of every reachable host.
-/

open Function (update)

/-- **Turns run in mailbox order**: what the mailbox accepted is what was
handled, then the item a worker has received and not begun to handle, then
what is buffered. -/
structure Fifo (f : HostFlow) : Prop where
  received : ∀ g item, f.workers g = .received item →
    f.accepted = f.taken ++ item :: f.mailbox.buffer
  between : (∀ g item, f.workers g ≠ .received item) →
    f.accepted = f.taken ++ f.mailbox.buffer

namespace Fifo

variable {f : HostFlow} {g : ℕ}

/-- The order does not depend on the rest of the flow. -/
theorem frame {f' : HostFlow} (h : Fifo f) (hw : f'.workers = f.workers)
    (ha : f'.accepted = f.accepted) (ht : f'.taken = f.taken)
    (hb : f'.mailbox.buffer = f.mailbox.buffer) : Fifo f' :=
  ⟨by rw [hw, ha, ht, hb]; exact h.received,
    by rw [hw, ha, ht, hb]; exact h.between⟩

/-- Nothing was received if the only living worker has not received
anything. -/
theorem accepted_eq (h : Fifo f) (hl : Lifecycle f.toLife)
    (hg : ∀ g item, f.workerPromise = some g → f.workers g ≠ .received item) :
    f.accepted = f.taken ++ f.mailbox.buffer := by
  refine h.between (fun g item he => hg g item ?_ he)
  exact (hl.alive g (by rw [he]; rfl)).2

/-- A worker that moves, neither from nor to having received an item. -/
theorem setWorker (h : Fifo f) {w : WorkerStage}
    (hg : ∀ item, f.workers g ≠ .received item)
    (hw : ∀ item, w ≠ .received item) : Fifo (f.setWorker g w) where
  received g' item he := by
    refine h.received g' item ?_
    grind
  between hn := by
    refine h.between (fun g' item he => ?_)
    have := hn g' item
    grind

/-- `handle` was called on the item received. -/
theorem take (h : Fifo f) (hl : Lifecycle f.toLife) {item : Item}
    {w : WorkerStage} (hg : f.workers g = .received item)
    (hw : ∀ item, w ≠ .received item) :
    Fifo { f.setWorker g w with taken := f.taken ++ [item] } where
  received g' item' he := by
    have hp := (hl.alive g (by rw [hg]; rfl)).2
    have hg' : g' ≠ g := by rintro rfl; grind
    have he' : f.workers g' = .received item' := by grind
    have hp' := (hl.alive g' (by rw [he']; rfl)).2
    exact absurd (Option.some.inj (hp'.symm.trans hp)) hg'
  between _ := by
    show f.accepted = (f.taken ++ [item]) ++ f.mailbox.buffer
    rw [h.received g item hg, List.append_assoc, List.singleton_append]

theorem dequeue (h : Fifo f) (hg : ∀ g item, f.workers g ≠ .received item) :
    Fifo (f.dequeue g) := by
  have hb := h.between hg
  unfold HostFlow.dequeue
  rcases f.mailbox.dequeue_cases g with ⟨x, m, he, hb', -⟩ | ⟨he, -⟩
    | ⟨m, he, hb', -, hb'', -⟩ <;> rw [he]
  · refine ⟨by grind, fun hn => absurd ?_ (hn g x)⟩
    grind
  · constructor <;> grind
  · constructor <;> grind

theorem enqueue (h : Fifo f) (hl : Lifecycle f.toLife) (item : Item) :
    Fifo (f.enqueue item) := by
  have hwake := f.mailbox.wakeful
  unfold HostFlow.enqueue
  rcases f.mailbox.enqueue_cases item with ⟨he, hc⟩ | ⟨he, hc, hw, -⟩
    | ⟨w, m, he, hc, hws, hb, hc', -⟩ | ⟨m, he, hc, hw, hw', -, hb, hc', -⟩ <;>
    rw [he]
  · exact ⟨h.received, h.between⟩
  · exact ⟨h.received, h.between⟩
  · have hwait := hl.waits w (by rw [hws]; exact List.mem_cons_self)
    have hlive := hl.alive w (by rw [hwait]; rfl)
    have hnone : ∀ g item, f.workers g ≠ .received item := by
      intro g item hg
      have := hl.alive g (by rw [hg]; rfl)
      grind
    have hb' := h.between hnone
    have hempty := hwake (by rw [hws]; simp)
    refine ⟨by grind [Function.update_apply], fun hn => absurd ?_ (hn w item)⟩
    exact Function.update_self _ _ _
  · obtain ⟨hr, hbt⟩ := h
    constructor <;> grind

theorem enqueueAll (h : Fifo f) (hl : Lifecycle f.toLife)
    (rs : List InboxRecord) : Fifo (f.enqueueAll rs) := by
  induction rs generalizing f with
  | nil => exact h
  | cons r rs ih =>
    rw [HostFlow.enqueueAll]
    split
    · exact h
    · exact ih (h.enqueue hl _) (hl.enqueue _)

/-- What is handled comes, in order, before what is not handled yet. -/
theorem taken_prefix (h : Fifo f) : f.taken <+: f.accepted := by
  by_cases hr : ∃ g item, f.workers g = .received item
  · obtain ⟨g, item, hg⟩ := hr
    exact ⟨_, (h.received g item hg).symm⟩
  · exact ⟨_, (h.between (fun g item hg => hr ⟨g, item, hg⟩)).symm⟩

/-! ## The steps

Only an enqueue adds to what was accepted, and only a worker takes from the
buffer; the other moves leave the three lists alone, or create an empty
mailbox. -/

theorem of_opening {f' : HostFlow} (h : Fifo f) (hl : Lifecycle f.toLife)
    (hs : f.Opening f') : Fifo f' := by
  cases hs with
  | none => exact h
  | refuse ha hp => exact h.frame rfl rfl rfl rfl
  | begin capacity hc ha hp =>
    refine ⟨fun g item he => ?_, fun _ => rfl⟩
    have := hl.not_alive ha g
    rw [show f.workers g = .received item from he] at this
    exact absurd this (by simp [WorkerStage.alive])

theorem of_activating {f' : HostFlow} (h : Fifo f) (hl : Lifecycle f.toLife)
    (hs : f.Activating f') : Fifo f' := by
  cases hs with
  | activated hi =>
    have ha := (hl.early (by cases hi <;> simp_all)).1
    refine (dequeue (h.frame rfl rfl rfl rfl) (fun g item he => ?_)).frame
      rfl rfl rfl rfl
    have := hl.not_alive ha g
    rw [show f.workers g = .received item from he] at this
    exact absurd this (by simp [WorkerStage.alive])
  | replayed hp => exact (h.enqueueAll hl _).frame rfl rfl rfl rfl
  | _ => exact h.frame rfl rfl rfl rfl

theorem of_working {f' : HostFlow} (h : Fifo f) (hl : Lifecycle f.toLife)
    (hs : f.Working g f') : Fifo f' := by
  cases hs with
  | dequeue hg =>
    refine h.dequeue (fun g' item hg' => ?_)
    have h₁ := (hl.alive g (by rw [hg]; rfl)).2
    have h₂ := (hl.alive g' (by rw [hg']; rfl)).2
    obtain rfl := Option.some.inj (h₁.symm.trans h₂)
    exact absurd (hg.symm.trans hg') (by simp)
  | exit hg => exact h.setWorker (by rw [hg]; simp) (by simp)
  | refuse e hg =>
    exact (h.take hl hg (by simp)).frame rfl rfl rfl rfl
  | ignore hg => exact h.take hl hg (by simp)
  | start hg => exact h.take hl hg (by simp)
  | resolve r hg =>
    exact (h.setWorker (by rw [hg]; simp) (by simp)).frame rfl rfl rfl rfl
  | commit hg =>
    exact (h.setWorker (by rw [hg]; simp) (by simp)).frame rfl rfl rfl rfl
  | ack hg =>
    exact (h.setWorker (by rw [hg]; simp) (by simp)).frame rfl rfl rfl rfl
  | turn hg => rw [HostFlow.setWorker_self hg]; exact h
  | flush hg => rw [HostFlow.setWorker_self hg]; exact h
  | fail e hg =>
    rcases hg with hg | ⟨id, hg⟩ | hg <;>
      exact (h.setWorker (by rw [hg]; simp) (by simp)).frame rfl rfl rfl rfl
  | unhandled ok hg =>
    exact (h.setWorker (by rw [hg]; simp) (by simp)).frame rfl rfl rfl rfl
  | finish hg => exact h.setWorker (by rw [hg]; simp) (by simp)

theorem of_deactivating {f' : HostFlow} (h : Fifo f) (hs : f.Deactivating f') :
    Fifo f' := by
  cases hs <;> exact h.frame rfl rfl rfl rfl

/-- Closing the mailbox wakes workers that have received nothing. -/
theorem of_closing {f' : HostFlow} (h : Fifo f) (hl : Lifecycle f.toLife)
    (hs : f.Closing f') : Fifo f' := by
  cases hs with
  | none => exact h
  | close hd ha hg =>
    have hwait := hl.waits
    refine ⟨fun g' item he => h.received g' item ?_,
      fun hn => h.between (fun g' item he => hn g' item ?_)⟩
    · change (if g' ∈ f.mailbox.waiters then _ else _) = _ at he
      grind
    · change (if g' ∈ f.mailbox.waiters then _ else _) = _
      grind
  | unattended _ hd ha hg => exact absurd hg (hl.present ha (by simp [hd])).1

theorem of_telling {t : ℕ} {f' : HostFlow} (h : Fifo f) (hl : Lifecycle f.toLife)
    (hs : f.Telling t f') : Fifo f' := by
  cases hs with
  | accept ht hr => exact (h.enqueue hl _).frame rfl rfl rfl rfl
  | _ => exact h.frame rfl rfl rfl rfl

theorem of_calling {c : ℕ} {f' : HostFlow} (h : Fifo f) (hl : Lifecycle f.toLife)
    (hs : f.Calling c f') : Fifo f' := by
  cases hs with
  | move hp => exact h.frame rfl rfl rfl rfl
  | accept method args hf hr => exact (h.enqueue hl _).frame rfl rfl rfl rfl

/-- **Every way a flow moves keeps the order.** -/
theorem of_moves {Env : Type} {a : Act Env} {f' : HostFlow} (h : Fifo f)
    (hl : Lifecycle f.toLife) (hs : f.Moves f' a) : Fifo f' := by
  cases a with
  | activate => exact h.of_opening hl hs
  | tellStart t type payload =>
    obtain ⟨-, f₁, task, ho, -, rfl⟩ := hs
    exact (h.of_opening hl ho).frame rfl rfl rfl rfl
  | tellLand t ok => exact h.of_telling hl hs
  | tellResume t => exact h.of_telling hl hs
  | callStart c method args =>
    obtain ⟨-, ⟨-, hc⟩ | ⟨f₁, task, ho, -, rfl⟩⟩ := hs
    · exact h.of_calling hl hc
    · exact (h.of_opening hl ho).frame rfl rfl rfl rfl
  | callResume c => exact h.of_calling hl hs.2
  | activation env ok => exact h.of_activating hl hs
  | worker g env ok => exact h.of_working hl hs
  | deactivate env => exact h.of_closing hl hs
  | deactivation env => exact h.of_deactivating hs
  | destroy env => exact h.of_closing hl hs
  | idleFire env => exact h.of_closing hl hs
  | flushResume k =>
    obtain ⟨es, rfl⟩ := hs
    exact h.frame rfl rfl rfl rfl
  | _ =>
    obtain rfl := hs
    exact h

theorem init {S Env Op : Type} (cfg : HostConfig S Env Op)
    (store : ActorStore S) : Fifo (Sys.init cfg store).flow :=
  ⟨fun g item h => absurd h (by simp [Sys.init, Sys.flow, Host.init,
    WorkerPc.stage]), fun _ => rfl⟩

end Fifo
